import EvilResp.Cluster.Assignment
import EvilResp.Cluster.Faults
import EvilResp.Cluster.Rewrite
import EvilResp.Library.Lossy

/-!
# Agreement of the discovery paths

A client learns the nodes of a cluster from the synthesized slots, from redirections,
from the reply to CLUSTER SHARDS or from the one to CLUSTER NODES.  Each path formats,
parses and looks up addresses in its own way; all of them name the same listener for the
same node.

Main results:

- Theorem {lit}`discovery_agrees`: every path names the listener of a node, and a
  rewritten server is a listener found by its address or by a port that decides alone.
- Theorem {lit}`discovery_disagrees`: an entry with the ID of another node goes to that
  node, and an entry without a port or with an unknown host may go nowhere.
-/

namespace EvilResp

open Library
open EvilResp.Resp

/-! ## The redirection map of a topology -/

section

variable {listen : SocketAddr} {slots mapped : List LocalSlotRange} {targets : List ProxyTarget}
  {node : LocalNode}

/-- The map finds a node by its address. -/
theorem Listeners.lookup_upstream (h : Listeners listen slots targets mapped)
    (hnode : node ∈ clusterNodes mapped) :
    (ClusterRedirectionMap.fromSlotRanges mapped).localByUpstream.lookup
      node.upstream.connectAddr = some node.localAddr.text := by
  have hmem : (node.upstream, node.localAddr.text) ∈ (clusterNodes mapped).map fun node =>
      (node.upstream, node.localAddr.text) :=
    List.mem_map_of_mem hnode
  refine ClusterRedirectionMap.fromMappings_upstream_of_mem hmem fun other hother hkey => ?_
  rcases List.mem_map.mp hother with ⟨found, hfound, rfl⟩
  exact congrArg SocketAddr.text (h.shared found hfound node hnode (.inl hkey))

/-- The map finds a node by its ID. -/
theorem Listeners.lookup_id (h : Listeners listen slots targets mapped)
    (hnode : node ∈ clusterNodes mapped) {id : Bytes} (hid : node.nodeId = some id) :
    (ClusterRedirectionMap.fromSlotRanges mapped).localByNodeId.lookup id =
      some node.localAddr.text := by
  have hfold : ((clusterNodes mapped).foldl (insertItem LocalNode.nodeId fun node =>
      node.localAddr.text) []).lookup id = some node.localAddr.text := by
    refine lookup_insertItem_of_mem hnode hid fun other hother hoid => ?_
    exact congrArg SocketAddr.text (h.shared other hother node hnode (.inr ⟨id, hoid, hid⟩))
  exact hfold

/-- What the map finds by an ID is the listener of a node with that ID. -/
theorem exists_of_lookup_id {id : Bytes} {listener : String}
    (h : (ClusterRedirectionMap.fromSlotRanges mapped).localByNodeId.lookup id =
      some listener) :
    ∃ other ∈ clusterNodes mapped, other.nodeId = some id ∧ other.localAddr.text = listener := by
  have hfold : ((clusterNodes mapped).foldl (insertItem LocalNode.nodeId fun node =>
      node.localAddr.text) []).lookup id = some listener := h
  rcases lookup_insertItem hfold with hfound | hnil
  · exact hfound
  · cases hnil

/-- The listeners have ports of 16 bits. -/
theorem Listeners.port_lt (h : Listeners listen slots targets mapped)
    (hnode : node ∈ clusterNodes mapped) : node.localAddr.port < 2 ^ 16 := by
  have hlisted := h.listed node hnode
  rw [h.ports] at hlisted
  rcases List.mem_map.mp hlisted with ⟨offset, hoffset, heq⟩
  have hbound := h.bound offset (List.mem_range.mp hoffset)
  have hport := congrArg TcpEndpoint.port (Endpoint.tcp.inj heq)
  have hsame : listen.port + offset = node.localAddr.port := hport
  omega

/-- One target listens for a node. -/
theorem Listeners.count_eq_one (h : Listeners listen slots targets mapped)
    (hnode : node ∈ clusterNodes mapped) :
    (targets.map ProxyTarget.listen).count (.tcp node.localAddr.endpoint) = 1 := by
  have hnodup : (targets.map ProxyTarget.listen).Nodup := by
    rw [h.ports]
    refine List.Nodup.map_on ?_ List.nodup_range
    intro i _ j _ heq
    have hport := congrArg TcpEndpoint.port (Endpoint.tcp.inj heq)
    have hsame : listen.port + i = listen.port + j := hport
    omega
  exact List.count_eq_one_of_mem hnodup (h.listed node hnode)

end

/-! ## Nodes that every path can name -/

/-- The host of a node is a name or an address, and its ID is text without spaces. -/
structure LocalNode.Plain (node : LocalNode) : Prop where
  host_nonempty : node.upstream.host.toList ≠ []
  host_unbracketed : ∀ c ∈ node.upstream.host.toList, c ≠ '[' ∧ c ≠ ']'
  host_unspaced : ∀ c ∈ node.upstream.host.toList, isWhitespace c = false
  id_text : ∀ id, node.nodeId = some id → ∃ text, id = asBytes text ∧ ' ' ∉ text.toList

theorem LocalNode.Plain.plainHost {node : LocalNode} (h : node.Plain) :
    TcpEndpoint.PlainHost node.upstream.host where
  nonempty := h.host_nonempty
  open_free := fun hmem => (h.host_unbracketed _ hmem).1 rfl
  close_free := fun hmem => (h.host_unbracketed _ hmem).2 rfl

/-! ## The paths -/

theorem portOf_ofNat {port : Nat} (h : port < 2 ^ 16) : portOf (Int64.ofNat port) = some port := by
  have hint : (Int64.ofNat port).toInt = port := Int64.toInt_ofNat_of_lt (by omega)
  rw [portOf, hint, if_pos (by omega), Int.toNat_natCast]

/-- The synthesized slots name the listener. -/
theorem nodeEndpoint_toRespFrame {node : LocalNode} (h : node.localAddr.port < 2 ^ 16) :
    nodeEndpoint node.toRespFrame = some node.localAddr.text := by
  simp only [LocalNode.toRespFrame, nodeEndpoint, frameString, fromUtf8Lossy_asBytes,
    portOf_ofNat h]
  rfl

section

variable {lib : Externals} {listen : SocketAddr} {slots mapped : List LocalSlotRange}
  {targets : List ProxyTarget} {node : LocalNode}

/-- A text that names the address of a node is rewritten to its listener. -/
theorem Listeners.rewriteServer (h : Listeners listen slots targets mapped)
    (hnode : node ∈ clusterNodes mapped) {server : String}
    (hparse : TcpEndpoint.parse lib server = .ok node.upstream) :
    (ClusterRedirectionMap.fromSlotRanges mapped).rewriteServer lib server =
      some node.localAddr.text := by
  rw [ClusterRedirectionMap.rewriteServer, hparse]
  simp only [h.lookup_upstream hnode]

/-- So is every text under the ID of the node. -/
theorem Listeners.rewriteNode_id (h : Listeners listen slots targets mapped)
    (hnode : node ∈ clusterNodes mapped) {id : Bytes} (hid : node.nodeId = some id)
    (server : String) :
    (ClusterRedirectionMap.fromSlotRanges mapped).rewriteNode lib (some id) server =
      some node.localAddr.text := by
  rw [ClusterRedirectionMap.rewriteNode, Option.bind_some, h.lookup_id hnode hid]

/-- An ID that is missing, unknown, or of a node with the same listener. -/
def NamesNoOther (mapped : List LocalSlotRange) (node : LocalNode) (id : Option Bytes) : Prop :=
  ∀ bytes, id = some bytes → ∀ other ∈ clusterNodes mapped, other.nodeId = some bytes →
    other.localAddr = node.localAddr

/-- The address decides where the ID names no other node. -/
theorem Listeners.rewriteNode_address (h : Listeners listen slots targets mapped)
    (hnode : node ∈ clusterNodes mapped) {id : Option Bytes} (hid : NamesNoOther mapped node id)
    {server : String} (hparse : TcpEndpoint.parse lib server = .ok node.upstream) :
    (ClusterRedirectionMap.fromSlotRanges mapped).rewriteNode lib id server =
      some node.localAddr.text := by
  unfold ClusterRedirectionMap.rewriteNode
  split
  · rename_i listener hfound
    rcases Option.bind_eq_some_iff.mp hfound with ⟨bytes, hbytes, hlookup⟩
    rcases exists_of_lookup_id hlookup with ⟨other, hother, hoid, rfl⟩
    rw [hid bytes hbytes other hother hoid]
  · exact h.rewriteServer hnode hparse

/-! ### Shards -/

/-- The entry of a node with the listener in place of its address. -/
def MapEntries.relocated (entries : MapEntries) (listener : TcpEndpoint) : Frame :=
  { entries with pairs := entries.pairs.map (rewriteNodeEntry listener) }.intoFrame

/-- The host that the entry of a node names. -/
def MapEntries.host (entries : MapEntries) : String :=
  (entries.string "ip").getD ((entries.string "endpoint").getD
    ((entries.string "hostname").getD ""))

theorem rewriteShardNode_of_localEndpoint {map : ClusterRedirectionMap} {entry : Frame}
    {entries : MapEntries} {port : Int} {listener : TcpEndpoint}
    (hentries : MapEntries.parse entry = some entries)
    (hport : entries.integer "port" = some port)
    (hlistener : localEndpoint lib map (entries.string "id") entries.host port = some listener) :
    rewriteShardNode lib map entry = some (entries.relocated listener) := by
  rw [MapEntries.host] at hlistener
  simp only [rewriteShardNode, hentries, hport, hlistener, Option.bind_eq_bind, Option.bind_some]
  rfl

theorem localEndpoint_of_rewriteNode {map : ClusterRedirectionMap} {id : Option String}
    {host : String} {port : Int} (hport : 0 ≤ port ∧ port ≤ 65535)
    (hlocal : node.localAddr.port < 2 ^ 16)
    (hnode : map.rewriteNode lib (id.map asBytes)
      (if host.isEmpty ∨ host = "?" then s!":{port}"
        else ({ host, port := port.toNat } : TcpEndpoint).connectAddr) =
      some node.localAddr.text) :
    localEndpoint lib map id host port = some node.localAddr.endpoint := by
  rw [localEndpoint, if_neg (by omega)]
  simp only [hnode, Option.bind_eq_bind, Option.bind_some, SocketAddr.parse_text lib hlocal]
  rfl

/-! ### Node lines -/

/-- The end of a line after an address: a bus port, further fields, or nothing. -/
def IsLineTail (tail : List Char) : Prop :=
  tail = [] ∨ tail.head? = some '@' ∨ tail.head? = some ' '

theorem splitOnce_self (c : Char) (cs : List Char) : splitOnce c (c :: cs) = some ([], cs) := by
  simp [splitOnce]

theorem splitOnce_ne {c d : Char} (h : d ≠ c) (cs : List Char) :
    splitOnce c (d :: cs) = (splitOnce c cs).map fun parts => (d :: parts.1, parts.2) := by
  simp [splitOnce, h]

/-- The fields of a line are read past an address without separators. -/
theorem nodeFields_append {socket tail : List Char} (hspace : ' ' ∉ socket) (hat : '@' ∉ socket)
    (htail : IsLineTail tail) :
    nodeSocket (socket ++ tail) = socket ∧ nodeTail (socket ++ tail) = nodeTail tail := by
  have hnone : splitOnce '@' socket = none := by
    have happend := splitOnce_append hat []
    rw [List.append_nil] at happend
    exact happend
  unfold nodeSocket nodeTail
  rw [splitOnce_append hspace]
  rcases htail with rfl | htail | htail
  · simp [splitOnce, hnone]
  · rcases List.head?_eq_some_iff.mp htail with ⟨bus, rfl⟩
    rw [splitOnce_ne (by decide)]
    cases hbus : splitOnce ' ' bus with
    | none => simp [splitOnce_append hat, splitOnce_self]
    | some parts => simp [splitOnce_append hat, splitOnce_self]
  · rcases List.head?_eq_some_iff.mp htail with ⟨rest, rfl⟩
    rw [splitOnce_self]
    simp [hnone, splitOnce]

theorem rewriteNodesLine_of_rewriteNode {map : ClusterRedirectionMap} {id rest : List Char}
    {listener : String} (hid : ' ' ∉ id)
    (hnode : map.rewriteNode lib (some (asBytes (String.ofList id)))
      (String.ofList (nodeSocket rest)) = some listener) :
    rewriteNodesLine lib map (id ++ ' ' :: rest) =
      some (id ++ ' ' :: listener.toList ++ nodeTail rest) := by
  rw [rewriteNodesLine_eq, splitOnce_append hid, splitOnce_self]
  simp [hnode]

/-- One line of a reply is rewritten on its own. -/
def LineBecomes (lib : Externals) (map : ClusterRedirectionMap)
    (line rewritten : List Char) : Prop :=
  ∀ text before after, lines (fromUtf8Lossy text).toList = before ++ line :: after →
    rewriteClusterNodes lib map (.bulkString (some text)) =
      .bulkString (some (asBytes (String.ofList
        (rewriteLines lib map before ++ (rewritten ++ '\n' :: rewriteLines lib map after)))))

theorem lineBecomes_of_rewriteNodesLine {map : ClusterRedirectionMap}
    {line rewritten : List Char} (h : rewriteNodesLine lib map line = some rewritten) :
    LineBecomes lib map line rewritten := by
  intro text before after hlines
  rw [rewriteClusterNodes, rewriteNodesText_eq, hlines]
  have happend : rewriteLines lib map (before ++ line :: after) =
      rewriteLines lib map before ++ rewriteLines lib map (line :: after) := by
    simp [rewriteLines]
  rw [happend, rewriteLines_cons, h]
  simp

/-- The two texts of an address: with its host in brackets if it has colons, or as it
is. -/
def IsSocketText (endpoint : TcpEndpoint) (socket : List Char) : Prop :=
  socket = endpoint.connectAddr.toList ∨
    socket = endpoint.host.toList ++ ':' :: endpoint.port.repr.toList

theorem connectAddr_toList (endpoint : TcpEndpoint) : endpoint.connectAddr.toList =
      endpoint.host.toList ++ ':' :: endpoint.port.repr.toList ∨
    endpoint.connectAddr.toList =
      '[' :: endpoint.host.toList ++ ']' :: ':' :: endpoint.port.repr.toList := by
  unfold TcpEndpoint.connectAddr
  split
  · exact .inr (by simp [String.toList_append, toString, ToString.toString])
  · exact .inl (by simp [String.toList_append, toString, ToString.toString])

/-- The address of a plain node has no more separators than its host. -/
theorem not_mem_socket {endpoint : TcpEndpoint} {socket : List Char} {c : Char}
    (h : IsSocketText endpoint socket) (hhost : c ∉ endpoint.host.toList) (hdigit : ¬ c.isDigit)
    (hopen : c ≠ '[') (hclose : c ≠ ']') (hcolon : c ≠ ':') : c ∉ socket := by
  have hport : c ∉ Nat.toDigits 10 endpoint.port := by
    rw [← Nat.toList_repr]
    exact fun hmem => hdigit (isDigit_of_mem_repr hmem)
  rcases h with rfl | rfl
  · rcases connectAddr_toList endpoint with heq | heq
    · rw [heq]
      simp [hhost, hcolon, hport]
    · rw [heq]
      simp [hhost, hcolon, hport, hopen, hclose]
  · simp [hhost, hcolon, hport]

theorem parse_socket {socket : List Char} (h : IsSocketText node.upstream socket)
    (hplain : node.Plain) :
    TcpEndpoint.parse lib (String.ofList socket) = .ok node.upstream := by
  rcases h with rfl | rfl
  · rw [String.ofList_toList]
    exact TcpEndpoint.parse_connectAddr lib hplain.plainHost node.port_lt
  · exact TcpEndpoint.parse_plain lib hplain.plainHost node.port_lt

/-! ## Agreement -/

/-- Every path names the listener of a node, which is that of one target. -/
structure Agreed (lib : Externals) (targets : List ProxyTarget) (mapped : List LocalSlotRange)
    (map : ClusterRedirectionMap) (node : LocalNode) : Prop where
  slots : nodeEndpoint node.toRespFrame = some node.localAddr.text
  server : map.rewriteServer lib node.upstream.connectAddr = some node.localAddr.text
  nodeId : ∀ id, node.nodeId = some id → ∀ server,
    map.rewriteNode lib (some id) server = some node.localAddr.text
  shardOfId : ∀ entry entries id port, MapEntries.parse entry = some entries →
    entries.string "id" = some id → node.nodeId = some (asBytes id) →
    entries.integer "port" = some port → 0 ≤ port ∧ port ≤ 65535 →
    rewriteShardNode lib map entry = some (entries.relocated node.localAddr.endpoint)
  shardOfAddress : ∀ entry entries, MapEntries.parse entry = some entries →
    entries.host = node.upstream.host → node.upstream.host ≠ "?" →
    entries.integer "port" = some (node.upstream.port : Int) →
    NamesNoOther mapped node ((entries.string "id").map asBytes) →
    rewriteShardNode lib map entry = some (entries.relocated node.localAddr.endpoint)
  lineOfId : ∀ id rest, node.nodeId = some (asBytes (String.ofList id)) →
    LineBecomes lib map (id ++ ' ' :: rest)
      (id ++ ' ' :: node.localAddr.text.toList ++ nodeTail rest)
  lineOfAddress : '@' ∉ node.upstream.host.toList → ∀ id socket tail, ' ' ∉ id →
    IsSocketText node.upstream socket → IsLineTail tail →
    NamesNoOther mapped node (some (asBytes (String.ofList id))) →
    LineBecomes lib map (id ++ ' ' :: (socket ++ tail))
      (id ++ ' ' :: node.localAddr.text.toList ++ nodeTail tail)
  target : (targets.map ProxyTarget.listen).count (.tcp node.localAddr.endpoint) = 1

/-- The port of a text: that of the endpoint it names, or what follows its last colon. -/
def NamesPort (lib : Externals) (server : String) (port : Nat) : Prop :=
  (∃ endpoint, TcpEndpoint.parse lib server = .ok endpoint ∧ endpoint.port = port) ∨
    ∃ host digits, TcpEndpoint.rsplitOnce ':' server.toList = some (host, digits) ∧
      parseUnsigned 16 (String.ofList digits) = .ok port

/-- A listener of a target that a text leads to: by the address it names, or by a port
that all nodes with it share. -/
structure FoundBy (lib : Externals) (targets : List ProxyTarget) (mapped : List LocalSlotRange)
    (server listener : String) : Prop where
  target : ∃ target ∈ targets, ∃ endpoint,
    target.listen = .tcp endpoint ∧ endpoint.connectAddr = listener
  reason : (∃ endpoint, TcpEndpoint.parse lib server = .ok endpoint ∧
      ∃ node ∈ clusterNodes mapped,
        node.upstream.connectAddr = endpoint.connectAddr ∧ node.localAddr.text = listener) ∨
    ∃ port, NamesPort lib server port ∧
      (∃ node ∈ clusterNodes mapped, node.upstream.port = port) ∧
      ∀ node ∈ clusterNodes mapped, node.upstream.port = port → node.localAddr.text = listener

theorem Listeners.exists_target (h : Listeners listen slots targets mapped)
    (hnode : node ∈ clusterNodes mapped) : ∃ target ∈ targets, ∃ endpoint,
      target.listen = .tcp endpoint ∧ endpoint.connectAddr = node.localAddr.text := by
  rcases List.mem_map.mp (h.listed node hnode) with ⟨target, htarget, hlisten⟩
  exact ⟨target, htarget, node.localAddr.endpoint, hlisten, rfl⟩

/-- A port that decides alone gives the listener of all nodes with it. -/
theorem Listeners.foundBy_port (h : Listeners listen slots targets mapped) {server : String}
    {listener : String} {port : Nat} (hport : NamesPort lib server port)
    (hlookup : (ClusterRedirectionMap.fromSlotRanges mapped).localByUniqueUpstreamPort.lookup
      port = some listener) : FoundBy lib targets mapped server listener := by
  have hmappings := ClusterRedirectionMap.fromMappings_port hlookup
  rcases hmappings with ⟨⟨mapping, hmem, hmport⟩, hsame⟩
  rcases List.mem_map.mp hmem with ⟨node, hnode, rfl⟩
  have hall : ∀ node ∈ clusterNodes mapped, node.upstream.port = port →
      node.localAddr.text = listener := by
    intro other hother hoport
    exact hsame _ (List.mem_map_of_mem hother) hoport
  constructor
  · rw [← hall node hnode hmport]
    exact h.exists_target hnode
  · exact .inr ⟨port, hport, ⟨node, hnode, hmport⟩, hall⟩

theorem Listeners.foundBy (h : Listeners listen slots targets mapped) {server listener : String}
    (hserver : (ClusterRedirectionMap.fromSlotRanges mapped).rewriteServer lib server =
      some listener) : FoundBy lib targets mapped server listener := by
  unfold ClusterRedirectionMap.rewriteServer at hserver
  split at hserver
  · rename_i endpoint hparse
    split at hserver
    · rename_i found hfound
      cases hserver
      rcases ClusterRedirectionMap.fromMappings_upstream hfound with
        ⟨mapping, hmem, hkey, hlistener⟩
      rcases List.mem_map.mp hmem with ⟨node, hnode, rfl⟩
      constructor
      · rw [← hlistener]
        exact h.exists_target hnode
      · exact .inl ⟨endpoint, hparse, node, hnode, hkey, hlistener⟩
    · exact h.foundBy_port (.inl ⟨endpoint, hparse, rfl⟩) hserver
  · simp only [Option.bind_eq_bind, Option.bind_eq_some_iff, Prod.exists] at hserver
    rcases hserver with ⟨host, digits, hsplit, port, hport, hlookup⟩
    have hok := toOption_eq_some_iff.mp hport
    exact h.foundBy_port (.inr ⟨host, digits, hsplit, hok⟩) hlookup

/-- The paths of a plain node agree. -/
theorem Listeners.agreed (lib : Externals) (h : Listeners listen slots targets mapped)
    (hnode : node ∈ clusterNodes mapped) (hplain : node.Plain) :
    Agreed lib targets mapped (ClusterRedirectionMap.fromSlotRanges mapped) node := by
  have hport := h.port_lt hnode
  have hparse := TcpEndpoint.parse_connectAddr lib hplain.plainHost node.port_lt
  constructor
  · exact nodeEndpoint_toRespFrame hport
  · exact h.rewriteServer hnode hparse
  · intro id hid server
    exact h.rewriteNode_id hnode hid server
  · intro entry entries id port hentries hid hnid hinteger hrange
    refine rewriteShardNode_of_localEndpoint hentries hinteger ?_
    refine localEndpoint_of_rewriteNode hrange hport ?_
    rw [hid]
    exact h.rewriteNode_id hnode hnid _
  · intro entry entries hentries hhost hknown hinteger hother
    refine rewriteShardNode_of_localEndpoint hentries hinteger ?_
    have hlt := node.port_lt
    refine localEndpoint_of_rewriteNode (by omega) hport ?_
    have hempty : ¬ (entries.host.isEmpty = true ∨ entries.host = "?") := by
      rw [hhost, not_or]
      refine ⟨fun hnil => hplain.host_nonempty ?_, hknown⟩
      have hnil : node.upstream.host = "" := by simpa using hnil
      rw [hnil]
      rfl
    rw [if_neg hempty, hhost, Int.toNat_natCast]
    exact h.rewriteNode_address hnode hother hparse
  · intro id rest hid
    rcases hplain.id_text _ hid with ⟨text, htext, hspace⟩
    have hsame : String.ofList id = text := asBytes_injective htext
    rw [← hsame, String.toList_ofList] at hspace
    exact lineBecomes_of_rewriteNodesLine
      (rewriteNodesLine_of_rewriteNode hspace (h.rewriteNode_id hnode hid _))
  · intro hat id socket tail hspace hsocket htail hother
    have hblank : ' ' ∉ node.upstream.host.toList := by
      intro hmem
      exact absurd (hplain.host_unspaced _ hmem) (by decide)
    have hsocketSpace := not_mem_socket hsocket hblank (by decide) (by decide) (by decide)
      (by decide)
    have hsocketAt := not_mem_socket hsocket hat (by decide) (by decide) (by decide) (by decide)
    rcases nodeFields_append hsocketSpace hsocketAt htail with ⟨hfield, hrest⟩
    rw [← hrest]
    refine lineBecomes_of_rewriteNodesLine (rewriteNodesLine_of_rewriteNode hspace ?_)
    rw [hfield]
    exact h.rewriteNode_address hnode hother (parse_socket hsocket hplain)
  · exact h.count_eq_one hnode

/-- All discovery paths name the same listener for the same node, and every rewritten
server is a listener, found by its address or by a port that decides alone. -/
theorem discovery_agrees (lib : Externals) {slots mapped : List LocalSlotRange}
    {listen : SocketAddr} {targets : List ProxyTarget}
    (h : mapClusterSlots slots listen = some (.ok (.cluster targets mapped))) :
    (∀ node ∈ clusterNodes mapped, node.Plain →
      Agreed lib targets mapped (Topology.cluster targets mapped).localRedirectionMap node) ∧
    ∀ server listener,
      (Topology.cluster targets mapped).localRedirectionMap.rewriteServer lib server =
        some listener → FoundBy lib targets mapped server listener := by
  have hlisteners := listeners_of_mapClusterSlots h
  constructor
  · intro node hnode hplain
    exact hlisteners.agreed lib hnode hplain
  · intro server listener hserver
    exact hlisteners.foundBy hserver

theorem discovery_agrees_aliased :
    ∃ targets mapped, (∀ node ∈ clusterNodes mapped, node.Plain →
      Agreed default targets mapped (Topology.cluster targets mapped).localRedirectionMap node) ∧
      ∀ server listener,
        (Topology.cluster targets mapped).localRedirectionMap.rewriteServer default server =
          some listener → FoundBy default targets mapped server listener := by
  have h : mapClusterSlots aliasedSlots { unmapped with port := 6380 } =
      some (.ok (.cluster _ _)) := rfl
  exact ⟨_, _, discovery_agrees default h⟩

end

/-! ## Where the paths part -/

/-- Two nodes with IDs, one with an unknown host that shares its port with another, and
one with a user in front of its host. -/
def crossedSlots (listener : Nat → Nat) : List LocalSlotRange :=
  [{ start := 0
     stop := 16383
     primary := loopbackNode "a" 1 (some 112) (listener 0)
     replicas := [
       loopbackNode "b" 2 (some 114) (listener 1),
       loopbackNode "?" 3 none (listener 2),
       loopbackNode "c" 3 none (listener 3),
       loopbackNode "u@h" 4 none (listener 4)] }]

theorem plain_loopbackNode {host : String} {port : UInt16} {listener : Nat} {id : Option UInt8}
    (hne : host.toList ≠ [])
    (hhost : ∀ c ∈ host.toList, c ≠ '[' ∧ c ≠ ']' ∧ isWhitespace c = false)
    (htext : ∀ bytes, id.map (fun byte => [byte]) = some bytes →
      ∃ text, bytes = asBytes text ∧ ' ' ∉ text.toList) :
    (loopbackNode host port id listener).Plain where
  host_nonempty := hne
  host_unbracketed := fun c hc => ⟨(hhost c hc).1, (hhost c hc).2.1⟩
  host_unspaced := fun c hc => (hhost c hc).2.2
  id_text := htext

theorem plain_crossedSlots (listener : Nat → Nat) :
    ∀ node ∈ clusterNodes (crossedSlots listener), node.Plain := by
  have hnone : ∀ bytes : Bytes, none = some bytes →
      ∃ text, bytes = asBytes text ∧ ' ' ∉ text.toList := by
    intro bytes h
    cases h
  have hsome : ∀ text, ' ' ∉ text.toList → ∀ bytes : Bytes, some (asBytes text) = some bytes →
      ∃ text, bytes = asBytes text ∧ ' ' ∉ text.toList := by
    intro text htext bytes h
    cases h
    exact ⟨text, rfl, htext⟩
  intro node hnode
  simp only [clusterNodes, crossedSlots, LocalSlotRange.nodes, List.flatMap_cons,
    List.flatMap_nil, List.append_nil, List.mem_cons, List.not_mem_nil, or_false] at hnode
  rcases hnode with rfl | rfl | rfl | rfl | rfl
  · exact plain_loopbackNode (by decide) (forall_mem_of_all (by decide)) (hsome "p" (by decide))
  · exact plain_loopbackNode (by decide) (forall_mem_of_all (by decide)) (hsome "r" (by decide))
  · exact plain_loopbackNode (by decide) (forall_mem_of_all (by decide)) hnone
  · exact plain_loopbackNode (by decide) (forall_mem_of_all (by decide)) hnone
  · exact plain_loopbackNode (by decide) (forall_mem_of_all (by decide)) hnone

/-- The entry or line of a node goes to another listener under the ID of another node.  It
is dropped if it has no port, or if its host is unknown and its port is not unique, or if
its host holds the separator of the bus port. -/
theorem discovery_disagrees :
    (∃ targets, mapClusterSlots (crossedSlots fun _ => 0) { unmapped with port := 7000 } =
      some (.ok (.cluster targets (crossedSlots (7000 + ·))))) ∧
    (∀ node ∈ clusterNodes (crossedSlots (7000 + ·)), node.Plain) ∧
    ∃ map, map = ClusterRedirectionMap.fromSlotRanges (crossedSlots (7000 + ·)) ∧
      rewriteShardNode default map (.map [(.simpleString "id", .simpleString "r"),
        (.simpleString "ip", .simpleString "a"), (.simpleString "port", .integer 1)]) =
        some (.map [(.simpleString "id", .simpleString "r"),
          (.simpleString "ip", .bulkString (some (asBytes "127.0.0.1"))),
          (.simpleString "port", .integer 7001)]) ∧
      rewriteShardNode default map (.map [(.simpleString "id", .simpleString "r")]) = none ∧
      rewriteShardNode default map (.map [(.simpleString "ip", .simpleString "?"),
        (.simpleString "port", .integer 3)]) = none ∧
      rewriteNodesLine default map "r a:1".toList = some "r 127.0.0.1:7001".toList ∧
      rewriteNodesLine default map "x u@h:4".toList = none := by
  refine ⟨⟨_, rfl⟩, plain_crossedSlots _, _, rfl, ?_⟩
  decide +kernel

end EvilResp
