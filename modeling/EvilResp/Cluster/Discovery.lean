import EvilResp.Cluster.Address
import EvilResp.Cluster.Redirection

/-!
# Discovery

The reply to CLUSTER SLOTS lists the nodes of a cluster.  Discovery reads it and gives
every node a local listener: nodes are matched by address or by ID, every primary is
served before the replicas, and ports are counted up from the one to listen on.  The
outer {lit}`none` of the mapping stands for a panic.
-/

namespace EvilResp

open Library
open EvilResp.Resp

/-- A listener, with the upstream it stands for. -/
structure ProxyTarget where
  upstream : Endpoint
  listen : Endpoint
deriving DecidableEq

/-- A node with the listener it is reached through.  An empty ID is no ID. -/
structure LocalNode where
  upstream : TcpEndpoint
  localAddr : SocketAddr
  nodeId : Option Bytes
  port_lt : upstream.port < 2 ^ 16
  nodeId_ne : nodeId ≠ some []
deriving DecidableEq

/-- A range of slots, with the nodes that serve it. -/
structure LocalSlotRange where
  start : Nat
  stop : Nat
  primary : LocalNode
  replicas : List LocalNode
deriving DecidableEq

/-- The primary and the replicas of a range. -/
def LocalSlotRange.nodes (slot : LocalSlotRange) : List LocalNode :=
  slot.primary :: slot.replicas

/-- What was discovered: one server, or a cluster. -/
inductive Topology where
  | standalone (target : ProxyTarget)
  | cluster (targets : List ProxyTarget) (slots : List LocalSlotRange)
deriving DecidableEq

/-- All listeners of a topology. -/
def Topology.targets : Topology → List ProxyTarget
  | standalone target => [target]
  | cluster targets _ => targets

/-! ## Reading the reply -/

/-- Read the number of a slot. -/
def asSlot (frame : Option Frame) (name : String) : AppResult Nat :=
  match frame with
  | some (.integer value) =>
      if 0 ≤ value.toInt ∧ value.toInt < 2 ^ 16 then .ok value.toInt.toNat
      else .error (.proxy s!"{name} {value.toInt} is outside u16 range")
  | _ => .error (.proxy s!"{name} is not an integer")

/-- The host of a node; the server that was asked stands for an unknown one. -/
def nodeHost (bootstrap : TcpEndpoint) : Frame → AppResult String
  | .bulkString (some bytes) | .verbatimString bytes =>
      let host := fromUtf8Lossy bytes
      .ok (if host.isEmpty ∨ host = "?" then bootstrap.host else host)
  | .simpleString host => .ok host
  | _ => .error (.proxy "cluster slot node host is not a string")

/-- Read a port. -/
def nodePort : Frame → AppResult { port : Nat // port < 2 ^ 16 }
  | .integer port =>
      if h : 0 ≤ port.toInt ∧ port.toInt < 2 ^ 16 then .ok ⟨port.toInt.toNat, by omega⟩
      else .error (.proxy s!"invalid cluster node port {port.toInt}")
  | _ => .error (.proxy "cluster slot node port is not an integer")

/-- The bytes of a node ID, if there is one. -/
def nodeIdBytes : Option Frame → Option Bytes
  | some (.bulkString (some bytes)) | some (.verbatimString bytes) => some bytes
  | some (.simpleString value) => some (asBytes value)
  | _ => none

/-- An empty ID is none. -/
theorem filter_ne_some_nil (id : Option Bytes) : id.filter (· ≠ []) ≠ some [] := by
  cases id with
  | none => simp
  | some bytes => simp [Option.filter]

/-- The address of a node before it has a listener. -/
def unmapped : SocketAddr :=
  { ip := .v4 #v[127, 0, 0, 1], port := 0 }

/-- Read a node: its host, its port and its ID. -/
def parseNode (bootstrap : TcpEndpoint) : Frame → AppResult LocalNode
  | .array (some (host :: port :: rest)) => do
      let host ← nodeHost bootstrap host
      let port ← nodePort port
      .ok {
        upstream := { host, port := port.1 }
        localAddr := unmapped
        nodeId := (nodeIdBytes rest.head?).filter (· ≠ [])
        port_lt := port.2
        nodeId_ne := filter_ne_some_nil _ }
  | .array (some _) => .error (.proxy "cluster slot node has fewer than two items")
  | _ => .error (.proxy "cluster slot node is not an array")

/-- Read a range: its ends, its primary and its replicas. -/
def parseSlotRange (bootstrap : TcpEndpoint) : Frame → AppResult LocalSlotRange
  | .array (some (start :: stop :: primary :: replicas)) => do
      let start ← asSlot (some start) "start slot"
      let stop ← asSlot (some stop) "end slot"
      let primary ← parseNode bootstrap primary
      let replicas ← replicas.mapM (parseNode bootstrap)
      .ok { start, stop, primary, replicas }
  | .array (some _) => .error (.proxy "cluster slot entry has fewer than three items")
  | _ => .error (.proxy "cluster slot entry is not an array")

/-- Read the reply to {lit}`CLUSTER SLOTS`. -/
def parseClusterSlots (items : List Frame) (bootstrap : TcpEndpoint) :
    AppResult (List LocalSlotRange) :=
  items.mapM (parseSlotRange bootstrap)

/-! ## Assigning listeners -/

/-- The maps of the assignment, with the targets in the order of their ports. -/
structure Assignment where
  localByUpstream : List (String × SocketAddr) := []
  localByNodeId : List (Bytes × SocketAddr) := []
  nodeIdByLocal : List (SocketAddr × Bytes) := []
  targets : List ProxyTarget := []

namespace Assignment

/-- The listener of a node, by its address alone. -/
def place (assigned : Assignment) (node : LocalNode) : Option SocketAddr :=
  assigned.localByUpstream.lookup node.upstream.connectAddr

/-- The listener that was assigned to a node with the same ID. -/
def placeById (assigned : Assignment) (node : LocalNode) : Option SocketAddr :=
  node.nodeId.bind (assigned.localByNodeId.lookup ·)

/-- Record the listener of a node under its address and its ID. -/
def record (assigned : Assignment) (node : LocalNode) (addr : SocketAddr) : Assignment :=
  let assigned := { assigned with
    localByUpstream := insertKey node.upstream.connectAddr addr assigned.localByUpstream }
  match node.nodeId with
  | none => assigned
  | some id => { assigned with
      localByNodeId := insertKey id addr assigned.localByNodeId
      nodeIdByLocal := insertKey addr id assigned.nodeIdByLocal }

/-- The address with the port counted up from the one to listen on. -/
def address (listen : SocketAddr) (offset : Nat) : SocketAddr :=
  { listen with port := listen.port + offset }

/-- Give a node that matches no earlier one the next port. -/
def assignPort (listen : SocketAddr) (assigned : Assignment) (node : LocalNode) :
    AppResult Assignment :=
  let offset := assigned.targets.length
  if 2 ^ 16 ≤ offset then .error (.proxy "cluster has more local nodes than u16 ports")
  else if 2 ^ 16 ≤ listen.port + offset then
    .error (.proxy s!"cluster local port mapping from {listen.port} overflows u16")
  else
    let addr := address listen offset
    .ok { assigned.record node addr with
      targets := assigned.targets ++ [{
        upstream := .tcp node.upstream
        listen := .tcp addr.endpoint }] }

/-- Give a node the listener of the node it matches. -/
def join (assigned : Assignment) (node : LocalNode) (addr : SocketAddr) : AppResult Assignment :=
  match node.nodeId, assigned.nodeIdByLocal.lookup addr with
  | some id, some existing =>
      if existing ≠ id then .error (.proxy "cluster endpoint has conflicting node IDs")
      else .ok (assigned.record node addr)
  | _, _ => .ok (assigned.record node addr)

/-- A node gets the listener of one it shares an ID or an endpoint with, or the next port. -/
def assign (listen : SocketAddr) (assigned : Assignment) (node : LocalNode) :
    AppResult Assignment :=
  match assigned.placeById node, assigned.place node with
  | some byId, some byEndpoint =>
      if byEndpoint ≠ byId then
        .error (.proxy "cluster node ID conflicts with endpoint mapping")
      else assigned.join node byId
  | some addr, none => assigned.join node addr
  | none, some addr => assigned.join node addr
  | none, none => assignPort listen assigned node

end Assignment

/-- Every primary comes first, to preserve the ports of the primaries. -/
def assignmentOrder (slots : List LocalSlotRange) : List LocalNode :=
  slots.map LocalSlotRange.primary ++ slots.flatMap LocalSlotRange.replicas

/-- A node with the listener of its address. -/
def placeNode (assigned : Assignment) (node : LocalNode) : Option LocalNode :=
  (assigned.place node).map fun addr => { node with localAddr := addr }

/-- The nodes of a range with their listeners. -/
def placeRange (assigned : Assignment) (slot : LocalSlotRange) : Option LocalSlotRange := do
  let primary ← placeNode assigned slot.primary
  let replicas ← slot.replicas.mapM (placeNode assigned)
  some { slot with primary, replicas }

/-- A listener for every node of the cluster, from a first port on. -/
def mapClusterSlots (slots : List LocalSlotRange) (listen : SocketAddr) :
    Option (AppResult Topology) :=
  if listen.port = 0 then
    some (.error (.proxy "cluster proxy mode requires a non-zero --listen port"))
  else
    match (assignmentOrder slots).foldlM (Assignment.assign listen) {} with
    | .error error => some (.error error)
    | .ok assigned => do
        let slots ← slots.mapM (placeRange assigned)
        some (.ok (.cluster assigned.targets slots))

/-! ## What clients are told -/

/-- A node as the proxy announces it. -/
def LocalNode.toRespFrame (node : LocalNode) : Frame :=
  let nodeId := node.nodeId.getD (asBytes s!"evilresp-{node.localAddr.port}")
  .array (some [
    .bulkString (some (asBytes (String.ofList node.localAddr.ip.display))),
    .integer (Int64.ofNat node.localAddr.port),
    .bulkString (some nodeId)])

/-- A range as the proxy announces it. -/
def LocalSlotRange.toRespFrame (slot : LocalSlotRange) : Frame :=
  .array (some ([.integer (Int64.ofNat slot.start), .integer (Int64.ofNat slot.stop)] ++
    slot.nodes.map LocalNode.toRespFrame))

/-- The synthesized reply to CLUSTER SLOTS. -/
def Topology.localSlotsResponse : Topology → Option Frame
  | standalone _ => none
  | cluster _ slots => some (.array (some (slots.map LocalSlotRange.toRespFrame)))

/-- The listeners of all nodes, by ID and by endpoint. -/
def ClusterRedirectionMap.fromSlotRanges (slots : List LocalSlotRange) :
    ClusterRedirectionMap :=
  let nodes := slots.flatMap LocalSlotRange.nodes
  let map := fromMappings (nodes.map fun node => (node.upstream, node.localAddr.text))
  { map with
    localByNodeId := nodes.foldl
      (insertItem LocalNode.nodeId fun node => node.localAddr.text) map.localByNodeId }

/-- The map that replies are rewritten with. -/
def Topology.localRedirectionMap : Topology → ClusterRedirectionMap
  | standalone _ => {}
  | cluster _ slots => .fromSlotRanges slots

end EvilResp
