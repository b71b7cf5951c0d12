import EvilResp.Cluster.Redirection
import EvilResp.Config.Evil
import EvilResp.Mutation.Framing

/-!
# Topology faults

Redirections that name a wrong node, slot or kind: either mixed into the redirections
of the upstream with one probability, or made up by the focused controls.  The outer
{lit}`none` of a fault stands for a panic.

Main results:

- Theorem {lit}`configuredRedirection_isSome`: the focused controls draw from no empty
  range.
- Theorem {lit}`maybeMutateTopology_isSome`: neither do the legacy ones.
-/

namespace EvilResp

open Library
open EvilResp.Resp

/-- A redirection in place of a reply, with the record of what was changed. -/
structure TopologyMutation where
  frame : Frame
  mutations : List AppliedMutation

/-! ## Slots -/

/-- The number of slots of a cluster. -/
def clusterSlotCount : Nat := 16384

/-- One bit of the checksum of XMODEM. -/
def crcBit (crc : UInt16) : UInt16 :=
  if crc &&& 0x8000 ≠ 0 then (crc <<< 1) ^^^ 0x1021 else crc <<< 1

/-- One byte goes into the checksum. -/
def crcByte (crc : UInt16) (byte : UInt8) : UInt16 :=
  Nat.repeat crcBit 8 (crc ^^^ (byte.toUInt16 <<< 8))

/-- The checksum of a key. -/
def crc16Xmodem (bytes : Bytes) : UInt16 :=
  bytes.foldl crcByte 0

/-- The part of a key between its first opening brace and the next closing one. -/
def keyTag (key : Bytes) : Bytes :=
  match key.dropWhile (· ≠ 123) with
  | [] => key
  | _ :: rest =>
      let (tag, after) := rest.span (· ≠ 125)
      if after = [] ∨ tag = [] then key else tag

/-- The slot of a key: that of its hash tag if it has one that is not empty. -/
def redisSlot (key : Bytes) : Int :=
  (crc16Xmodem (keyTag key)).toNat % clusterSlotCount

/-- Every key has a slot of the cluster. -/
theorem redisSlot_range (key : Bytes) : 0 ≤ redisSlot key ∧ redisSlot key < clusterSlotCount := by
  unfold redisSlot clusterSlotCount
  omega

/-- The slot of one argument of a command, by its position. -/
def commandSlot (command : Frame) (key : Nat) : Option Int :=
  match command with
  | .array (some items) =>
      match items[key]? with
      | some (.bulkString (some bytes)) => some (redisSlot bytes)
      | some (.verbatimString bytes) => some (redisSlot bytes)
      | some (.simpleString value) => some (redisSlot (asBytes value))
      | _ => none
  | .inline parts => parts[key]?.map redisSlot
  | _ => none

/-! ## Nodes -/

/-- The text of a frame that holds one. -/
def frameString : Frame → Option String
  | .bulkString (some bytes) => some (fromUtf8Lossy bytes)
  | .verbatimString bytes => some (fromUtf8Lossy bytes)
  | .simpleString value => some value
  | _ => none

/-- A port of 16 bits. -/
def portOf (port : Int64) : Option Nat :=
  if 0 ≤ port.toInt ∧ port.toInt < 2 ^ 16 then some port.toInt.toNat else none

/-- The endpoint of a node in a slots reply. -/
def nodeEndpoint : Frame → Option String
  | .array (some (host :: .integer port :: _)) => do
      let host ← frameString host
      let port ← portOf port
      some { host, port : TcpEndpoint }.connectAddr
  | _ => none

/-- The nodes of a slots reply, each once, and those of one slot. -/
structure RedirectNodes where
  primaries : List String := []
  all : List String := []
  owner : Option String := none
  replicas : List String := []
deriving DecidableEq

namespace RedirectNodes

/-- Append a name that is not listed yet. -/
def insert (names : List String) (name : String) : List String :=
  if name ∈ names then names else names ++ [name]

/-- A replica serves a slot if its range covers it. -/
def addReplica (ownsSlot : Bool) (nodes : RedirectNodes) (replica : String) : RedirectNodes :=
  { nodes with
    replicas := if ownsSlot then insert nodes.replicas replica else nodes.replicas
    all := insert nodes.all replica }

/-- One range of slots, with its primary and its replicas. -/
def addRange (slot : Int) (nodes : RedirectNodes) : Frame → RedirectNodes
  | .array (some (.integer start :: .integer stop :: primary :: replicas)) =>
      match nodeEndpoint primary with
      | none => nodes
      | some primary =>
          let ownsSlot : Bool := start.toInt ≤ slot ∧ slot ≤ stop.toInt
          let nodes := { nodes with
            primaries := insert nodes.primaries primary
            owner := if ownsSlot then some primary else nodes.owner
            all := insert nodes.all primary }
          (replicas.filterMap nodeEndpoint).foldl (addReplica ownsSlot) nodes
  | _ => nodes

/-- The nodes that a reply to {lit}`CLUSTER SLOTS` names, seen from one slot. -/
def fromSlots (slots : Frame) (slot : Int) : RedirectNodes :=
  match slots with
  | .array (some ranges) => ranges.foldl (addRange slot) {}
  | _ => {}

end RedirectNodes

/-! ## Drawing parts of a redirection -/

/-- One signed integer of 32 bits. -/
def genI32 : Draw Int := do
  let bits ← genBits 32
  return (BitVec.ofNat 32 bits).toInt

/-- One of some targets, if there is any. -/
def choose (targets : List String) : Draw (Option String) :=
  if targets = [] then return none else some <$> Draw.pick targets

/-- Another slot of the cluster. -/
def wrongValidSlot (current : Int) : Draw Int := do
  let slot ← genRange 0 clusterSlotCount
  return if (slot : Int) = current then ((slot + 1) % clusterSlotCount : Nat) else slot

/-- Another one of the targets, if there is any. -/
def wrongServer (current : String) (targets : List String) : Draw (Option String) :=
  choose (targets.filter (· ≠ current))

/-- Either kind of redirection. -/
def drawKind : Draw RedirectionKind := do
  let moved ← genBool
  return if moved then .moved else .ask

/-- Any integer of 32 bits can always be drawn. -/
theorem safe_genI32 : genI32.Safe := by
  apply Draw.safe_bind (all_genBits fun _ _ => trivial)
  intro bits
  trivial

/-- A target can be drawn, also if there is none. -/
theorem safe_choose (targets : List String) : (choose targets).Safe := by
  unfold choose
  split_ifs with hempty
  · trivial
  · exact Draw.safe_map (Draw.safe_pick hempty)

/-- Another slot can always be drawn. -/
theorem safe_wrongValidSlot (current : Int) : (wrongValidSlot current).Safe := by
  apply Draw.safe_bind (all_genRange (by decide) fun _ _ _ => trivial)
  intro slot
  trivial

/-- A kind can always be drawn. -/
theorem safe_drawKind : drawKind.Safe := by
  apply Draw.safe_bind (all_genBool.mpr ⟨trivial, trivial⟩)
  intro moved
  trivial

/-- The random stream of topology faults. -/
def topologyRng (lib : Externals) (seed commandIndex : UInt64) (commandHash upstreamHash : String) :
    Draw.Source :=
  lib.chacha20 (lib.sha256
    (asBytes "evilresp-topology" ++ rngPreimage seed commandIndex commandHash upstreamHash))

/-! ## Focused redirects -/

/-- What a focused redirection depends on. -/
structure RedirectContext where
  commandIndex : UInt64
  commandHash : String
  command : Frame
  upstreamBytes : Option Bytes
  localSlots : Frame
  listener : Option TcpEndpoint

/-- The server that a focused redirection names, if there is one of that sort. -/
def redirectServer (redirect : RedirectConfig) (nodes : RedirectNodes)
    (listener : Option String) : Draw (Option String) :=
  match redirect.target with
  | .endpoint endpoint => return some endpoint.connectAddr
  | .selfNode => return listener.filter (· ∈ nodes.all)
  | .wrongNode =>
      match nodes.owner with
      | none => return none
      | some owner => wrongServer owner nodes.primaries
  | .replica => choose nodes.replicas
  | .random => choose nodes.primaries
  | .next =>
      match listener with
      | none => return none
      | some listener =>
          if nodes.primaries.length < 2 ∨ listener ∉ nodes.all then return none
          else
            let next :=
              if listener ∈ nodes.primaries then
                (nodes.primaries.idxOf listener + 1) % nodes.primaries.length
              else 0
            return nodes.primaries[next]?

/-- The slot that a focused redirection names. -/
def redirectSlot (redirect : RedirectConfig) (correctSlot : Int) : Draw Int :=
  match redirect.slot with
  | .correct | .fixed _ => return correctSlot
  | .wrong => wrongValidSlot correctSlot
  | .wild => do
      let value ← genI32
      return if 0 ≤ value ∧ value < clusterSlotCount then -1 else value

/-- The kind of a focused redirection. -/
def redirectKind (redirect : RedirectConfig) : Draw RedirectionKind :=
  match redirect.kind with
  | .moved => return .moved
  | .ask => return .ask
  | .random => drawKind

/-- The slot of a command, or the fixed one. -/
def correctSlot (redirect : RedirectConfig) (command : Frame) : Option Int :=
  match redirect.slot with
  | .fixed slot => some slot
  | _ => commandSlot command redirect.key

/-- A focused redirection, if it applies and there are a server and a slot for it. -/
def drawRedirection (probability : F64) (redirect : RedirectConfig) (context : RedirectContext) :
    Draw (Option TopologyMutation) := do
  let applies ← shouldApply probability
  if !applies then return none
  else
    match correctSlot redirect context.command with
    | none => return none
    | some correct => do
        let nodes := RedirectNodes.fromSlots context.localSlots correct
        let server ← redirectServer redirect nodes (context.listener.map TcpEndpoint.connectAddr)
        match server with
        | none => return none
        | some server => do
            let slot ← redirectSlot redirect correct
            let kind ← redirectKind redirect
            return some {
              frame := { kind, slot, server : Redirection }.toFrame
              mutations := [{
                path := "topology"
                kind := match redirect.phase with
                  | .before => .topologyRedirectBefore
                  | .after => .topologyRedirectAfter }] }

/-- Whether the focused controls apply to a command before or after it is forwarded. -/
def redirectActive (config : EvilConfig) (redirect : RedirectConfig) (context : RedirectContext) :
    Bool :=
  !config.topologyProbability.le .zero ∧
    !(redirect.cutoff.any (· ≤ context.commandIndex.toNat)) ∧
    ((redirect.phase = .before) ↔ context.upstreamBytes = none)

/-- The redirection that the focused controls give a command, drawn from the topology stream. -/
def configuredRedirection (lib : Externals) (config : EvilConfig) (context : RedirectContext) :
    Option (Option TopologyMutation) :=
  match config.topologyRedirect with
  | none => some none
  | some redirect =>
      if !redirectActive config redirect context then some none
      else
        let upstreamHash := (context.upstreamBytes.map (deterministicHash lib)).getD ""
        (drawRedirection config.topologyProbability redirect context).run
          (topologyRng lib config.seed context.commandIndex context.commandHash upstreamHash)

/-- A focused redirection can always be drawn. -/
theorem safe_drawRedirection (probability : F64) (redirect : RedirectConfig)
    (context : RedirectContext) : (drawRedirection probability redirect context).Safe := by
  apply Draw.safe_bind (safe_shouldApply probability)
  intro applies
  split_ifs
  · trivial
  · cases correctSlot redirect context.command with
    | none => trivial
    | some correct =>
        refine Draw.safe_bind ?_ fun server => ?_
        · unfold redirectServer
          split
          case h_3 =>
            split
            · trivial
            · exact safe_choose _
          case h_4 | h_5 => exact safe_choose _
          case h_6 =>
            split
            · trivial
            · split_ifs <;> trivial
          all_goals trivial
        · cases server with
          | none => trivial
          | some server =>
              refine Draw.safe_bind ?_ fun slot => Draw.safe_bind ?_ fun kind => trivial
              · unfold redirectSlot
                split
                case h_3 => exact safe_wrongValidSlot correct
                case h_4 => exact Draw.safe_bind safe_genI32 fun _ => trivial
                all_goals trivial
              · unfold redirectKind
                split
                case h_3 => exact safe_drawKind
                all_goals trivial

/-- The focused controls draw from no empty range. -/
theorem configuredRedirection_isSome (lib : Externals) (config : EvilConfig)
    (context : RedirectContext) :
    ∃ mutation, configuredRedirection lib config context = some mutation := by
  unfold configuredRedirection
  cases config.topologyRedirect with
  | none => exact ⟨none, rfl⟩
  | some redirect =>
      dsimp only
      split_ifs
      · exact ⟨none, rfl⟩
      · rcases Draw.run_of_all (safe_drawRedirection config.topologyProbability redirect context) _
          with ⟨mutation, hmutation, -⟩
        exact ⟨mutation, hmutation⟩

/-! ## Legacy faults -/

/-- The primaries of a slots reply, one for each range. -/
def redirectionTargets : Frame → List String
  | .array (some ranges) => ranges.filterMap fun range =>
      match range with
      | .array (some (_ :: _ :: .array (some (host :: .integer port :: _)) :: _)) => do
          let host ← frameString host
          let port ← portOf port
          some s!"{host}:{port}"
      | _ => none
  | _ => []

/-- The slot of the first argument, or any slot. -/
def fakeSlot (command : Frame) : Draw Int :=
  match command.argvLossy[1]? with
  | some key => return redisSlot (asBytes key)
  | none => Nat.cast <$> genRange 0 clusterSlotCount

/-- A redirection for a command that was not redirected. -/
def fakeRedirection (command : Frame) (targets : List String) : Draw Redirection := do
  let slot ← fakeSlot command
  let server ← Draw.pick targets
  let kind ← drawKind
  return { kind, slot, server }

/-- A redirection with the record of what was changed. -/
abbrev Faulted := Redirection × List AppliedMutation

/-- Swap the kind of a redirection with some probability. -/
def wrongKind (probability : F64) (faulted : Faulted) : Draw Faulted := do
  let applies ← shouldApply probability
  return if applies then
      ({ faulted.1 with kind := match faulted.1.kind with | .moved => .ask | .ask => .moved },
        faulted.2 ++ [{ path := "topology.kind", kind := .topologyWrongRedirectionKind }])
    else faulted

/-- Name another slot with some probability. -/
def wrongSlot (probability : F64) (faulted : Faulted) : Draw Faulted := do
  let applies ← shouldApply probability
  if applies then do
    let slot ← wrongValidSlot faulted.1.slot
    return ({ faulted.1 with slot },
      faulted.2 ++ [{ path := "topology.slot", kind := .topologyWrongSlot }])
  else return faulted

/-- Name another server with some probability. -/
def otherServer (probability : F64) (targets : List String) (faulted : Faulted) : Draw Faulted := do
  let applies ← shouldApply probability
  if applies then do
    let server ← wrongServer faulted.1.server targets
    return match server with
      | some server => ({ faulted.1 with server },
          faulted.2 ++ [{ path := "topology.server", kind := .topologyWrongServer }])
      | none => faulted
  else return faulted

/-- Name something that is no slot with some probability. -/
def wildSlot (probability : F64) (faulted : Faulted) : Draw Faulted := do
  let applies ← shouldApply probability
  if applies then do
    let slot ← genI32
    return ({ faulted.1 with slot },
      faulted.2 ++ [{ path := "topology.slot", kind := .topologyWildSlot }])
  else return faulted

/-- Give a redirection each of the four faults with the same probability, one after the other. -/
def applyRedirectionMutations (probability : F64) (targets : List String) (faulted : Faulted) :
    Draw Faulted := do
  let faulted ← wrongKind probability faulted
  let faulted ← wrongSlot probability faulted
  let faulted ← otherServer probability targets faulted
  wildSlot probability faulted

/-- Change the redirection of the upstream, or make one up. -/
def drawTopology (probability : F64) (targets : List String) (command : Frame) :
    Option Redirection → Draw (Option TopologyMutation)
  | some redirection => do
      let faulted ← applyRedirectionMutations probability targets (redirection, [])
      return if faulted.2 = [] then none
        else some { frame := faulted.1.toFrame, mutations := faulted.2 }
  | none => do
      let applies ← shouldApply probability
      if !applies then return none
      else
        let fake ← fakeRedirection command targets
        let faulted ← applyRedirectionMutations probability targets
          (fake, [{ path := "topology", kind := .topologyFakeRedirection }])
        return if faulted.2 = [] then none
          else some { frame := faulted.1.toFrame, mutations := faulted.2 }

/-- The redirection the upstream answered, if it answered one. -/
def upstreamRedirection : Option Bytes → AppResult (Option Redirection)
  | some bytes => ((parseFrame bytes).mapError .resp).map Redirection.parse
  | none => .ok none

/-- The legacy faults of a reply: the redirection of the upstream is changed, or one made up. -/
def maybeMutateTopology (lib : Externals) (config : EvilConfig) (commandIndex : UInt64)
    (commandHash : String) (command : Frame) (upstreamBytes : Option Bytes) (localSlots : Frame) :
    AppResult (Option (Option TopologyMutation)) :=
  if config.topologyProbability.le .zero ∨ config.topologyRedirect.isSome then .ok (some none)
  else
    let targets := redirectionTargets localSlots
    if targets = [] then .ok (some none)
    else do
      let upstream ← upstreamRedirection upstreamBytes
      let upstreamHash := (upstreamBytes.map (deterministicHash lib)).getD ""
      .ok ((drawTopology config.topologyProbability targets command upstream).run
        (topologyRng lib config.seed commandIndex commandHash upstreamHash))

/-- The faults of a redirection can always be drawn. -/
theorem safe_applyRedirectionMutations (probability : F64) (targets : List String)
    (faulted : Faulted) : (applyRedirectionMutations probability targets faulted).Safe := by
  have happlies := safe_shouldApply probability
  refine Draw.safe_bind (Draw.safe_bind happlies fun _ => trivial) fun faulted =>
    Draw.safe_bind (Draw.safe_bind happlies fun applies => ?_) fun faulted =>
      Draw.safe_bind (Draw.safe_bind happlies fun applies => ?_) fun faulted =>
        Draw.safe_bind happlies fun applies => ?_
  · split_ifs
    · exact Draw.safe_bind (safe_wrongValidSlot _) fun _ => trivial
    · trivial
  · split_ifs
    · exact Draw.safe_bind (safe_choose _) fun _ => trivial
    · trivial
  · split_ifs
    · exact Draw.safe_bind safe_genI32 fun _ => trivial
    · trivial

/-- A redirection can be drawn if there are targets. -/
theorem safe_drawTopology (probability : F64) {targets : List String} (htargets : targets ≠ [])
    (command : Frame) (upstream : Option Redirection) :
    (drawTopology probability targets command upstream).Safe := by
  cases upstream with
  | some redirection =>
      exact Draw.safe_bind (safe_applyRedirectionMutations _ _ _) fun _ => trivial
  | none =>
      refine Draw.safe_bind (safe_shouldApply probability) fun applies => ?_
      split_ifs
      · trivial
      · refine Draw.safe_bind ?_ fun fake =>
          Draw.safe_bind (safe_applyRedirectionMutations _ _ _) fun _ => trivial
        have hslot : (fakeSlot command).Safe := by
          unfold fakeSlot
          split
          · trivial
          · exact Draw.safe_map (all_genRange (by decide) fun _ _ _ => trivial)
        exact Draw.safe_bind hslot fun slot => Draw.safe_bind (Draw.safe_pick htargets) fun server =>
          Draw.safe_map safe_drawKind

/-- The legacy faults draw from no empty range. -/
theorem maybeMutateTopology_isSome {lib : Externals} {config : EvilConfig} {commandIndex : UInt64}
    {commandHash : String} {command : Frame} {upstreamBytes : Option Bytes} {localSlots : Frame}
    {outcome : Option (Option TopologyMutation)}
    (h : maybeMutateTopology lib config commandIndex commandHash command upstreamBytes localSlots =
      .ok outcome) : ∃ mutation, outcome = some mutation := by
  simp only [maybeMutateTopology] at h
  split_ifs at h with hoff htargets
  · exact ⟨none, (Except.ok.inj h).symm⟩
  · exact ⟨none, (Except.ok.inj h).symm⟩
  · rcases bind_eq_ok_iff.mp h with ⟨upstream, -, hrun⟩
    rcases Draw.run_of_all (safe_drawTopology config.topologyProbability htargets command upstream) _
      with ⟨mutation, hmutation, -⟩
    exact ⟨mutation, (Except.ok.inj hrun).symm.trans hmutation⟩

example : redisSlot [49, 50, 51, 52, 53, 54, 55, 56, 57] = 12739 := by decide +kernel

end EvilResp
