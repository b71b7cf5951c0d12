import EvilResp.Cluster.Faults
import EvilResp.Cluster.Normalize
import EvilResp.Cluster.Rewrite
import EvilResp.Delivery.Deliver
import EvilResp.Proxy.Seeded
import EvilResp.Proxy.Stats
import EvilResp.Proxy.Transaction
import EvilResp.Upstream.Connection

/-!
# The loop of one connection

One connection reads a command, checks that no reset made it stale, and answers: itself,
from the upstream, or with a fault.  Between the check and a reset, and between the check
and the allocation of a command index, other connections may act on the shared state, so
these are steps of their own.  A task that returns, fails or panics is closed.

What was done for each accepted frame is kept as the history of the connection.  What a step
does besides is its effect: the index it takes, the reset it carries out, the command it publishes
to the monitors, and what it counts.
-/

namespace EvilResp

open Library
open EvilResp.Resp

/-! ## State -/

/-- What all connections of one listener share and never change. -/
structure Site where
  lib : Externals
  network : Network
  localSlots : Option Frame
  redirectionMap : ClusterRedirectionMap
  listener : Option TcpEndpoint
  resetSupported : Bool

/-- A standalone site whose upstream acknowledges every command. -/
def Site.acknowledging : Site where
  lib := default
  network _ := .ok .acknowledging
  localSlots := none
  redirectionMap := {}
  listener := none
  resetSupported := true

/-- The counters that all connections share. -/
structure Shared where
  resetEpoch : Nat := 0
  commandIds : Nat := 0
deriving DecidableEq

/-- The next command index, unless a reset made the connection stale. -/
def Shared.allocate (shared : Shared) (epoch : Nat) : Option (Nat × Shared) :=
  if epoch ≠ shared.resetEpoch then none
  else some (shared.commandIds, { shared with commandIds := shared.commandIds + 1 })

/-- Start a new epoch, whatever the epoch of the connection that asks for it. -/
def resetIncrementingState (shared : Shared) : Shared :=
  { resetEpoch := shared.resetEpoch + 1, commandIds := 0 }

/-- What a step does for others: it takes an index, starts an epoch, publishes a command to
those who monitor, and counts. -/
structure Effect where
  index : Option Nat := none
  reset : Bool := false
  published : Option Frame := none
  counted : Stats := 0

/-- The record of a delivery for the reproduction file.  What the socket does at a
connection fault is added to the outcome later. -/
structure ReproRecord where
  seed : UInt64
  commandIndex : Nat
  command : Bytes
  upstream : Option Bytes
  response : Bytes
  mode : EvilMode
  mutations : List AppliedMutation
  plannedWireBytes : Bytes
  deliveryPlan : DeliveryPlan
  deliveryOutcome : DeliveryOutcome

/-- What was done for one accepted frame. -/
structure Entry where
  request : Bytes
  /-- The settings when the frame was accepted. -/
  config : EvilConfig
  /-- The epoch and the index that were handed out. -/
  index : Option (Nat × Nat) := none
  /-- Whether the frame was written upstream. -/
  forwarded : Bool := false
  upstreamReply : Option Bytes := none
  /-- The commands of a finished transaction, for its results. -/
  execCommands : Option (List String) := none
  plan : Option DeliveryPlan := none
  /-- The bytes the client's writer accepted. -/
  accepted : Bytes := []
  /-- Whether the delivery truncated, applied a connection fault or failed. -/
  terminal : Bool := false
  record : Option ReproRecord := none

/-- Where a connection is in its loop. -/
inductive Phase where
  | reading
  /-- The command was accepted; the shared counters are not reset yet. -/
  | resetting (entry : Entry) (response : Bytes)
  /-- The command was accepted; it has no index yet. -/
  | allocating (entry : Entry) (command : Frame)
  | monitoring (entry : Entry)
  | closed

/-- A connection with everything that its task owns. -/
structure Connection where
  epoch : Nat
  phase : Phase := .reading
  config : EvilConfig := {}
  fingerprints : ProtocolFingerprints := {}
  transaction : TransactionCommands := {}
  upstream : UpstreamConnection
  script : List WriteEvent := []
  history : List Entry := []

/-- A connection loads the epoch when it is accepted. -/
def Connection.new (site : Site) (shared : Shared) (script : List WriteEvent) : Connection :=
  { epoch := shared.resetEpoch, upstream := .new site.network, script }

namespace Connection

/-! ## Commands -/

/-- The words of a debug command, in any letter case. -/
def isDebug (subcommand : String) : List String → Bool
  | debug :: name :: _ => eqIgnoreAsciiCase debug "DEBUG" && eqIgnoreAsciiCase name subcommand
  | _ => false

/-- A command that sets or shows the settings. -/
def isDebugEvil (argv : List String) : Bool :=
  isDebug "EVIL" argv

/-- A command that sets them all at once. -/
def isDebugChaos (argv : List String) : Bool :=
  isDebug "CHAOS" argv

/-- A command that asks for a fingerprint. -/
def isDebugProtocol (argv : List String) : Bool :=
  isDebug "PROTOCOL" argv

/-- The command that starts to monitor. -/
def isMonitor (command : Option String) : Bool :=
  command.any (eqIgnoreAsciiCase · "MONITOR")

/-- The command that asks for the slots. -/
def isClusterSlots (argv : List String) : Bool :=
  isClusterSubcommand argv "SLOTS"

/-! ## Replies of the proxy itself -/

/-- The history gets an entry, and the connection goes on in a phase. -/
def finish (conn : Connection) (entry : Entry) (phase : Phase) : Connection :=
  { conn with phase, history := conn.history ++ [entry] }

/-- Write a reply that is not counted; an error ends the connection. -/
def controlReply (conn : Connection) (entry : Entry) (bytes : Bytes) : Connection :=
  match writeAll conn.script bytes with
  | (script, accepted, .ok ()) => { conn with script }.finish { entry with accepted } .reading
  | (script, accepted, .error _) =>
      { conn with script }.finish { entry with accepted, terminal := true } .closed

/-- Write a counted reply; an error ends the connection. -/
def countedReply (conn : Connection) (entry : Entry) (bytes : Bytes) : Connection :=
  let counted := writeCounted conn.script conn.fingerprints bytes
  let conn := { conn with script := counted.script, fingerprints := counted.fingerprints }
  let entry := { entry with accepted := counted.accepted }
  match counted.result with
  | .ok () => conn.finish entry .reading
  | .error _ => conn.finish { entry with terminal := true } .closed

/-- The reply to {lit}`MONITOR` with arguments. -/
def monitorArityError : Frame :=
  .simpleError "ERR wrong number of arguments for 'monitor' command"

/-- MONITOR is acknowledged and then only writes lines. -/
def startMonitor (conn : Connection) (entry : Entry) (argv : List String) : Connection :=
  if argv.length ≠ 1 then conn.countedReply entry monitorArityError.encode
  else
    let counted := writeCounted conn.script conn.fingerprints (Frame.simpleString "OK").encode
    let conn := { conn with script := counted.script, fingerprints := counted.fingerprints }
    let entry := { entry with accepted := counted.accepted }
    match counted.result with
    | .ok () => { conn with phase := .monitoring entry }
    | .error _ => conn.finish { entry with terminal := true } .closed

/-- Write the line of one command that some connection received. -/
def publish (conn : Connection) (entry : Entry) (line : String) : Connection :=
  let counted := writeCounted conn.script conn.fingerprints (Frame.simpleString line).encode
  let conn := { conn with script := counted.script, fingerprints := counted.fingerprints }
  let entry := { entry with accepted := entry.accepted ++ counted.accepted }
  match counted.result with
  | .ok () => { conn with phase := .monitoring entry }
  | .error _ => conn.finish { entry with terminal := true } .closed

/-- Whether an exchange wrote its command on a session, whole or in part. -/
def wrote (conn : Connection) (upstream : UpstreamConnection) : Bool :=
  conn.upstream.forwarded.length < upstream.forwarded.length

/-- Where the upstream is not available, the transaction is forgotten. -/
def unavailable (conn : Connection) (entry : Entry) : Connection :=
  { conn with transaction := {} }.countedReply entry unavailableReply

/-- The other topology queries are answered by the upstream and rewritten. -/
def discover (site : Site) (conn : Connection) (entry : Entry) (argv : List String) :
    Connection :=
  let (upstream, result) := conn.upstream.exchange site.network entry.request argv
  let entry := { entry with forwarded := conn.wrote upstream }
  let conn := { conn with upstream }
  match result with
  | .error _ => conn.unavailable entry
  | .ok reply =>
      let entry := { entry with upstreamReply := some reply }
      match parseFrame reply with
      | .error _ => conn.finish entry .closed
      | .ok frame =>
          let response :=
            if isClusterShards argv then rewriteClusterShards site.lib site.redirectionMap frame
            else rewriteClusterNodes site.lib site.redirectionMap frame
          conn.countedReply entry response.encode

/-- Commands that are not ordinary are published and answered here; the others wait for an
index. -/
def dispatch (site : Site) (conn : Connection) (entry : Entry) (command : Frame)
    (argv : List String) : Effect × Connection :=
  match site.localSlots with
  | none => ({}, { conn with phase := .allocating entry command })
  | some slots =>
      if isClusterSlots argv then
        ({ published := some command }, conn.countedReply entry slots.encode)
      else if isClusterShards argv ∨ isClusterNodes argv then
        ({ published := some command }, conn.discover site entry argv)
      else ({}, { conn with phase := .allocating entry command })

/-- A settings command is published and counted, also where it is rejected. -/
def debugEvil (site : Site) (conn : Connection) (entry : Entry) (command : Frame)
    (argv : List String) : Effect × Connection :=
  let (config, result) := applyDebugEvil site.lib conn.config argv site.resetSupported
  let effect : Effect := {
    published := some command
    counted := Stats.countDebugEvil site.lib conn.config argv site.resetSupported }
  let conn := { conn with config }
  if result.action = .resetIncrementingState then
    (effect, { conn with phase := .resetting entry result.frame.encode })
  else (effect, conn.countedReply entry result.frame.encode)

/-- A frame that is part of the fingerprint of the input. -/
def heard (conn : Connection) (bytes : Bytes) : Connection :=
  { conn with fingerprints := conn.fingerprints.update .in bytes }

/-- Requests and replies of the first two commands are in neither fingerprint. -/
def handle (site : Site) (conn : Connection) (entry : Entry) (command : Frame) :
    Effect × Connection :=
  let argv := command.argvLossy
  if isDebugProtocol argv then
    ({}, conn.controlReply entry (applyDebugProtocol site.lib conn.fingerprints argv).encode)
  else if isDebugChaos argv then
    let (config, response) := applyDebugChaos site.lib conn.config conn.fingerprints argv
    ({ published := some command
       counted := Stats.countDebugChaos site.lib conn.config argv },
      { conn with config }.controlReply entry response.encode)
  else
    let conn := conn.heard entry.request
    if isMonitor command.commandName then ({}, conn.startMonitor entry argv)
    else if isDebugEvil argv then conn.debugEvil site entry command argv
    else conn.dispatch site entry command argv

/-- Accept one frame of the client, unless it is malformed or the connection is stale. -/
def accept (site : Site) (shared : Shared) (conn : Connection) (bytes : Bytes) :
    Effect × Connection :=
  match parseFrame bytes with
  | .error _ => ({}, { conn with phase := .closed })
  | .ok command =>
      if conn.epoch ≠ shared.resetEpoch then ({}, { conn with phase := .closed })
      else conn.handle site { request := bytes, config := conn.config } command

/-! ## Ordinary commands -/

/-- What the choices for one ordinary command depend on. -/
structure Command where
  index : Nat
  hash : String
  frame : Frame
  name : Option String
  shouldMutate : Bool

/-- An ordinary command, with all that its answer depends on. -/
def ordinaryCommand (site : Site) (config : EvilConfig) (index : Nat) (bytes : Bytes)
    (frame : Frame) : Command where
  index
  hash := deterministicHash site.lib bytes
  frame
  name := frame.commandName
  shouldMutate := config.shouldMutateCommand frame.commandName

/-- What a focused redirection of a command depends on. -/
def redirectContext (site : Site) (command : Command) (upstreamBytes : Option Bytes)
    (localSlots : Frame) : RedirectContext where
  commandIndex := UInt64.ofNat command.index
  commandHash := command.hash
  command := command.frame
  upstreamBytes
  localSlots
  listener := site.listener

/-- A focused redirect that is chosen before the command is forwarded. -/
def preTopology (site : Site) (config : EvilConfig) (command : Command) :
    Option (Option TopologyMutation) :=
  match site.localSlots with
  | none => some none
  | some slots =>
      if !command.shouldMutate then some none
      else configuredRedirection site.lib config (redirectContext site command none slots)

/-- The replies to a command may be delivered with faults. -/
def transportEnabled (config : EvilConfig) (command : Command) : Bool :=
  command.shouldMutate && config.transport.enabled

/-- A connection fault that is chosen before the command is forwarded. -/
def beforePlan (site : Site) (config : EvilConfig) (command : Command) :
    Option (Option DeliveryPlan) :=
  if !transportEnabled config command then some none
  else
    config.transport.beforePlan site.lib config.seed (UInt64.ofNat command.index) command.hash

/-- The reply to be delivered, with the hash that seeds its delivery. -/
structure Response where
  upstreamBytes : Option Bytes
  reply : MutatedReply
  seedHash : String

/-- The legacy faults, for a command that was or was not forwarded. -/
def legacyTopology (site : Site) (config : EvilConfig) (command : Command)
    (relayBytes : Option Bytes) (slots : Frame) : Option (Option TopologyMutation) :=
  match maybeMutateTopology site.lib config (UInt64.ofNat command.index) command.hash
      command.frame relayBytes slots with
  | .error _ => none
  | .ok outcome => outcome

/-- A generated reply, or a topology fault instead. -/
def randomResponse (site : Site) (config : EvilConfig) (command : Command)
    (pre : Option TopologyMutation) : Option Response := do
  let topology ←
    match pre, site.localSlots with
    | some mutated, _ => some (some mutated)
    | none, some slots => legacyTopology site config command none slots
    | none, none => some none
  let reply ←
    match topology with
    | some mutated => some { bytes := mutated.frame.encode, mutations := mutated.mutations }
    | none => randomReply site.lib config (UInt64.ofNat command.index) command.hash
  return { upstreamBytes := none, reply, seedHash := "" }

/-- The topology fault of a reply that was relayed. -/
def relayTopology (site : Site) (config : EvilConfig) (command : Command) (relayBytes : Bytes) :
    Option (Option TopologyMutation) :=
  match site.localSlots with
  | none => some none
  | some slots =>
      if !command.shouldMutate then some none
      else if config.topologyRedirect.isSome then
        configuredRedirection site.lib config (redirectContext site command (some relayBytes) slots)
      else legacyTopology site config command (some relayBytes) slots

/-- Whether the values of the reply are changed. -/
def mutatesValues (config : EvilConfig) (command : Command) : Bool :=
  command.shouldMutate && (config.mode = .mutate || config.mode = .overflow)

/-- The last changes of a reply.  Its canonical form seeds them and the delivery; a
reply that nothing is to be done with is not parsed. -/
def mutateRelayed (site : Site) (config : EvilConfig) (command : Command)
    (upstreamBytes : Option Bytes) (execCommands : Option (List String)) (base : MutatedReply) :
    Option Response :=
  if mutatesValues config command ∨ transportEnabled config command then
    match parseFrame base.bytes with
    | .error _ => none
    | .ok frame =>
        let canonical := canonicalInput config.canonicalization execCommands command.name frame
        let seedHash := seedHash site.lib canonical
        if mutatesValues config command then do
          let mutated ← mutateCommandReply site.lib config (UInt64.ofNat command.index)
            command.name command.hash seedHash canonical
          some {
            upstreamBytes
            reply := { bytes := mutated.bytes, mutations := base.mutations ++ mutated.mutations }
            seedHash }
        else some { upstreamBytes, reply := base, seedHash }
  else some { upstreamBytes, reply := base, seedHash := "" }

/-- The reply without the changes of values: a topology fault, or what was relayed. -/
def baseReply (topology : Option TopologyMutation) (relayBytes : Bytes) : MutatedReply :=
  match topology with
  | some mutated => { bytes := mutated.frame.encode, mutations := mutated.mutations }
  | none => { bytes := relayBytes, mutations := [] }

/-- The response to a reply of the upstream. -/
def relayResponse (site : Site) (config : EvilConfig) (command : Command)
    (execCommands : Option (List String)) (reply : Bytes) : Option Response :=
  match normalizeClusterRedirection site.lib site.localSlots site.redirectionMap reply with
  | .error _ => none
  | .ok relayBytes => do
      let topology ← relayTopology site config command relayBytes
      mutateRelayed site config command (some reply) execCommands (baseReply topology relayBytes)

/-- The plan of an ordinary reply. -/
def deliveryPlan (site : Site) (config : EvilConfig) (command : Command) (response : Response) :
    Option DeliveryPlan :=
  if transportEnabled config command then
    config.transport.plan site.lib config.seed (UInt64.ofNat command.index) command.hash
      response.seedHash response.reply.bytes.length
  else some (.plain response.reply.bytes.length)

/-- Deliver the reply.  A connection fault, a truncation and a failure end the
connection; the stall and the reset of a fault are done on the socket. -/
def deliverResponse (site : Site) (conn : Connection) (entry : Entry) (command : Command)
    (response : Response) (plan : DeliveryPlan) : Connection :=
  let wire := plan.wireBytes response.reply.bytes
  match deliver conn.script conn.fingerprints wire plan with
  | none => conn.finish entry .closed
  | some delivery =>
      let conn := { conn with script := delivery.script, fingerprints := delivery.fingerprints }
      let record : ReproRecord := {
        seed := conn.config.seed
        commandIndex := command.index
        command := entry.request
        upstream := response.upstreamBytes
        response := response.reply.bytes
        mode := conn.config.mode
        mutations := response.reply.mutations
        plannedWireBytes := wire
        deliveryPlan := plan
        deliveryOutcome := delivery.outcome site.lib plan wire }
      let recordNeeded : Bool := response.reply.mutations ≠ [] ∨ plan.isFault
      let terminal : Bool :=
        delivery.failure.isSome ∨ plan.connectionFault.isSome ∨ plan.truncateAt.isSome
      let entry := { entry with
        plan := some plan
        accepted := delivery.accepted
        terminal
        record := if recordNeeded ∨ delivery.failure.isSome then some record else none }
      conn.finish entry (if terminal then .closed else .reading)

/-- Plan and deliver a response, where there is one. -/
def respond (site : Site) (conn : Connection) (entry : Entry) (command : Command) :
    Option Response → Connection
  | none => conn.finish entry .closed
  | some response =>
      match deliveryPlan site conn.config command response with
      | none => conn.finish entry .closed
      | some plan => conn.deliverResponse site entry command response plan

/-- Forward the command and respond to the reply. -/
def forward (site : Site) (conn : Connection) (entry : Entry) (command : Command) : Connection :=
  let argv := command.frame.argvLossy
  let (upstream, result) := conn.upstream.exchange site.network entry.request argv
  let entry := { entry with forwarded := conn.wrote upstream }
  let conn := { conn with upstream }
  match result with
  | .error _ => conn.unavailable entry
  | .ok reply =>
      let (transaction, execCommands) := conn.transaction.observe argv reply
      let conn := { conn with transaction }
      let entry := { entry with upstreamReply := some reply, execCommands }
      conn.respond site entry command (relayResponse site conn.config command execCommands reply)

/-- An ordinary command with its index. -/
def ordinary (site : Site) (conn : Connection) (entry : Entry) (command : Command) : Connection :=
  match preTopology site conn.config command, beforePlan site conn.config command with
  | none, _ => conn.finish entry .closed
  | _, none => conn.finish entry .closed
  | some _, some (some plan) =>
      conn.deliverResponse site entry command
        { upstreamBytes := none, reply := { bytes := [], mutations := [] }, seedHash := "" } plan
  | some pre, some none =>
      if conn.config.mode = .random ∧ command.shouldMutate then
        conn.respond site entry command (randomResponse site conn.config command pre)
      else
        match pre with
        | some mutated =>
            conn.respond site entry command
              (mutateRelayed site conn.config command none none (baseReply (some mutated) []))
        | none => conn.forward site entry command

/-! ## Steps -/

/-- What a connection meets in one step. -/
inductive Input where
  /-- The next frame of the client. -/
  | frame (bytes : Bytes) (complete : Resp.readRawFrame bytes = .ok (bytes, []))
  /-- The end of the client's input, or an error.  A monitor does not read. -/
  | hangup
  /-- The turn to act on the shared counters. -/
  | turn
  /-- A line for a monitor. -/
  | line (text : String)

/-- A line of text that starts like no typed frame and fits in one. -/
def isInlineLine : Bytes → Bool
  | [] => false
  | kind :: text =>
      !isBlobKind kind && !isAggregateKind kind && !text.contains 10 &&
        decide (text.length + 3 ≤ maxFrameBytes)

/-- Such a line is read whole. -/
theorem readRawFrame_inlineLine {line : Bytes} (h : isInlineLine line = true) :
    Resp.readRawFrame (line ++ Frame.crlf) = .ok (line ++ Frame.crlf, []) := by
  cases line with
  | nil => cases h
  | cons kind text =>
      simp only [isInlineLine, Bool.and_eq_true, Bool.not_eq_true', List.contains_eq_mem,
        decide_eq_false_iff_not, decide_eq_true_eq] at h
      rcases h with ⟨⟨⟨hblob, haggregate⟩, hlf⟩, hsize⟩
      have hhead : IsHead (kind :: text ++ Frame.crlf) 0 := .scalar hblob haggregate hlf
      have hfits : (kind :: text ++ Frame.crlf).length ≤ maxFrameBytes := by
        simp only [Frame.crlf, List.length_append, List.length_cons, List.length_nil]
        omega
      have hread := readRawFrame_of_head hhead hfits []
      rwa [List.append_nil] at hread

/-- An inline command as the next frame. -/
def Input.inline (line : String) (h : isInlineLine (asBytes line) = true) : Input :=
  .frame (asBytes line ++ Frame.crlf) (readRawFrame_inlineLine h)

/-- The reply to a reset is not counted, and both fingerprints start again after it. -/
def finishReset (conn : Connection) (epoch : Nat) (entry : Entry) (response : Bytes) :
    Connection :=
  let conn := { conn with epoch }
  match writeAll conn.script response with
  | (script, accepted, .ok ()) =>
      { conn with script, fingerprints := {} }.finish { entry with accepted } .reading
  | (script, accepted, .error _) =>
      { conn with script }.finish { entry with accepted, terminal := true } .closed

/-- One step, if the input is possible in the phase of the connection. -/
def step (site : Site) (shared : Shared) (conn : Connection) :
    Input → Option (Effect × Shared × Connection)
  | .frame bytes _ =>
      match conn.phase with
      | .reading =>
          let (effect, conn) := conn.accept site shared bytes
          some (effect, shared, conn)
      | _ => none
  | .hangup =>
      match conn.phase with
      | .reading => some ({}, shared, { conn with phase := .closed })
      | _ => none
  | .line text =>
      match conn.phase with
      | .monitoring entry => some ({}, shared, conn.publish entry text)
      | _ => none
  | .turn =>
      match conn.phase with
      | .resetting entry response =>
          let shared := resetIncrementingState shared
          some ({ reset := true }, shared, conn.finishReset shared.resetEpoch entry response)
      | .allocating entry frame =>
          match shared.allocate conn.epoch with
          | none => some ({}, shared, conn.finish entry .closed)
          | some (index, shared) =>
              let command := ordinaryCommand site conn.config index entry.request frame
              let entry := { entry with index := some (conn.epoch, index) }
              some ({ index := some index, published := some frame }, shared,
                conn.ordinary site entry command)
      | _ => none

end Connection

end EvilResp
