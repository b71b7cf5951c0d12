import EvilResp.Cluster.Agreement
import EvilResp.Library.Firsts
import EvilResp.Resp.RoundTrip

/-!
# From a reply to its listeners

Discovery asks one server for the slots, falls back to a standalone target when there are none,
and serves one listener for each node.  What the proxy then tells its own clients is read back
as the same ranges, with every node at a listener, and behind that listener is the node.

Main results:

- Theorem {lit}`targets_of_mapClusterSlots`: every target forwards to the first node that has
  its listener.
- Theorem {lit}`advertised_routes`: an address that a client reads leads to the node it was
  listed for.
-/

namespace EvilResp

open Library
open EvilResp.Resp

/-! ## Discovery -/

/-- What a reply to CLUSTER SLOTS is read as.  The text of an unexpected frame is the debug
format of frames. -/
def readSlots (debugFrame : Frame → String) (bootstrap : TcpEndpoint) (raw : Bytes) :
    AppResult (List LocalSlotRange) := do
  let frame ← (parseFrame raw).mapError AppError.resp
  match frame with
  | .array (some items) => parseClusterSlots items bootstrap
  | .simpleError error => .error (.proxy s!"CLUSTER SLOTS failed: {error}")
  | other => .error (.proxy s!"CLUSTER SLOTS returned unexpected frame {debugFrame other}")

/-- The topology to serve.  The server is asked only where both endpoints are TCP, and a probe
that fails means that there is no cluster; the outer {lit}`none` stands for a panic. -/
def discover (proxy listen : Endpoint) (socketAddr : String → AppResult SocketAddr)
    (fetchClusterSlots : TcpEndpoint → AppResult (List LocalSlotRange)) :
    Option (AppResult Topology) :=
  match proxy, listen with
  | .tcp server, .tcp local_ =>
      match socketAddr local_.connectAddr with
      | .error error => some (.error error)
      | .ok addr =>
          match fetchClusterSlots server with
          | .ok [] | .error _ => some (.ok (.standalone { upstream := proxy, listen }))
          | .ok slots => mapClusterSlots slots addr
  | _, _ => some (.ok (.standalone { upstream := proxy, listen }))

/-! ## Lists of results -/

section

variable {ε α β γ : Type}

theorem mapM_map_eq_ok {write : γ → α} {read : α → Except ε β} {result : γ → β} {items : List γ}
    (h : ∀ item ∈ items, read (write item) = .ok (result item)) :
    (items.map write).mapM read = .ok (items.map result) := by
  induction items with
  | nil => rfl
  | cons item items ih =>
      rw [List.map_cons, List.mapM_cons, h item List.mem_cons_self,
        ih fun other hother => h other (List.mem_cons_of_mem _ hother)]
      rfl

/-- A result of many comes from one of them. -/
theorem exists_of_mem_mapM {read : α → Except ε β} {items : List α} {results : List β}
    (h : items.mapM read = .ok results) {result : β} (hresult : result ∈ results) :
    ∃ item ∈ items, read item = .ok result := by
  induction items generalizing results with
  | nil =>
      cases h
      cases hresult
  | cons item items ih =>
      rw [List.mapM_cons] at h
      rcases bind_eq_ok_iff.mp h with ⟨first, hfirst, hrest⟩
      rcases bind_eq_ok_iff.mp hrest with ⟨others, hothers, hok⟩
      cases hok
      rcases List.mem_cons.mp hresult with rfl | hother
      · exact ⟨item, List.mem_cons_self, hfirst⟩
      · rcases ih hothers hother with ⟨found, hmem, hfound⟩
        exact ⟨found, List.mem_cons_of_mem _ hmem, hfound⟩

end

/-! ## Targets -/

namespace Assignment

variable {assigned after : Assignment} {node : LocalNode} {addr listen : SocketAddr}
  {seen : List LocalNode}

/-- The target that a node opens. -/
def opens (assigned : Assignment) (node : LocalNode) : ProxyTarget where
  upstream := .tcp node.upstream
  listen := .tcp (assigned.located node).endpoint

/-- Each target was opened by the first node with its listener. -/
def Opened (assigned : Assignment) (seen : List LocalNode) : Prop :=
  assigned.targets = (firstsBy assigned.located seen).map assigned.opens

/-- The listeners that matter for a node are those of nodes seen before. -/
theorem Maps.exists_seen (h : Maps assigned seen)
    (hfound : assigned.place node = some addr ∨ assigned.placeById node = some addr) :
    ∃ other ∈ seen, assigned.place other = some addr := by
  rcases hfound with hfound | hfound
  · rcases h.endpoints node addr hfound with ⟨other, hmem, hkey⟩
    exact ⟨other, hmem, by rw [place, hkey]; exact hfound⟩
  · rcases Option.bind_eq_some_iff.mp hfound with ⟨id, -, hlookup⟩
    rcases (h.ids id addr).mp hlookup with ⟨other, hmem, -, hother⟩
    exact ⟨other, hmem, hother⟩

/-- What was opened before stays open where the nodes seen keep their listeners. -/
theorem firstsBy_opens_congr
    (hkeep : ∀ other ∈ seen, after.located other = assigned.located other) :
    (firstsBy after.located seen).map after.opens =
      (firstsBy assigned.located seen).map assigned.opens := by
  have hfirsts : firstsBy after.located seen = firstsBy assigned.located seen := by
    apply firstsBy_congr
    intro a ha b hb
    rw [hkeep a ha, hkeep b hb]
  rw [hfirsts]
  apply List.map_congr_left
  intro other hother
  rw [opens, opens, hkeep other (mem_of_mem_firstsBy hother)]

/-- One node opens a target exactly if it is the first with its listener. -/
theorem Opened.assign (h : Opened assigned seen) (hcovers : Covers listen assigned seen)
    (hassign : Assignment.assign listen assigned node = .ok after) :
    Opened after (seen ++ [node]) := by
  rcases assign_cases hassign with
    ⟨addr, rfl, hfound, hplace, hid, howner⟩ | ⟨hplace, hid, hbound, rfl⟩
  · have hkeep : ∀ other ∈ seen,
        (assigned.record node addr).located other = assigned.located other := by
      intro other hother
      rw [located, located, place_record_of_seen hplace (hcovers.found other hother)]
    rcases hcovers.toMaps.exists_seen hfound with ⟨other, hother, hshared⟩
    have hold : (assigned.record node addr).located node ∈
        seen.map (assigned.record node addr).located := by
      rw [List.mem_map]
      refine ⟨other, hother, ?_⟩
      rw [hkeep other hother, located, located, hshared, place_record_self]
    rw [Opened, record_targets, firstsBy_snoc_of_mem hold, firstsBy_opens_congr hkeep]
    exact h
  · set addr := address listen assigned.targets.length with haddr
    have hkeep : ∀ other ∈ seen,
        (assigned.withTarget node addr).located other = assigned.located other := by
      intro other hother
      show ((assigned.record node addr).place other).getD unmapped = assigned.located other
      rw [located, place_record_of_seen (by simp [hplace]) (hcovers.found other hother)]
    have hself : (assigned.withTarget node addr).located node = addr := by
      show ((assigned.record node addr).place node).getD unmapped = addr
      rw [place_record_self, Option.getD_some]
    have hnew : (assigned.withTarget node addr).located node ∉
        seen.map (assigned.withTarget node addr).located := by
      intro hmem
      rcases List.mem_map.mp hmem with ⟨other, hother, hsame⟩
      rcases Option.isSome_iff_exists.mp (hcovers.found other hother) with ⟨found, hfound⟩
      rcases hcovers.exists_offset hother hfound with ⟨offset, hoffset, rfl⟩
      rw [hkeep other hother, hself, located, hfound, Option.getD_some] at hsame
      have hports := congrArg SocketAddr.port hsame
      simp only [haddr, address, Nat.add_left_cancel_iff] at hports
      omega
    rw [Opened, firstsBy_snoc_of_not_mem hnew, List.map_append, firstsBy_opens_congr hkeep,
      List.map_singleton, opens, hself, ← h]
    rfl

theorem Opened.assignAll (h : Opened assigned seen) (hcovers : Covers listen assigned seen)
    {nodes : List LocalNode}
    (hassign : nodes.foldlM (Assignment.assign listen) assigned = .ok after) :
    Opened after (seen ++ nodes) := by
  induction nodes generalizing assigned seen with
  | nil =>
      cases hassign
      rwa [List.append_nil]
  | cons node nodes ih =>
      rw [List.foldlM_cons, bind_eq_ok_iff] at hassign
      rcases hassign with ⟨next, hnext, hrest⟩
      rw [List.append_cons]
      exact ih (h.assign hcovers hnext) (hcovers.assign hnext) hrest

end Assignment

/-- The target that serves a mapped node. -/
def LocalNode.target (node : LocalNode) : ProxyTarget where
  upstream := .tcp node.upstream
  listen := .tcp node.localAddr.endpoint

/-- Every target of a mapped cluster forwards to the first node that has its listener, in the
order of assignment. -/
theorem targets_of_mapClusterSlots {slots mapped : List LocalSlotRange} {listen : SocketAddr}
    {targets : List ProxyTarget}
    (h : mapClusterSlots slots listen = some (.ok (.cluster targets mapped))) :
    targets = (firstsBy LocalNode.localAddr (assignmentOrder mapped)).map LocalNode.target := by
  unfold mapClusterSlots at h
  by_cases hport : listen.port = 0
  · rw [if_pos hport] at h
    cases h
  · rw [if_neg hport] at h
    cases hassign : (assignmentOrder slots).foldlM (Assignment.assign listen) {} with
    | error error =>
        rw [hassign] at h
        cases h
    | ok assigned =>
        have hcovers := Assignment.covers_nil.assignAll hassign
        have hempty : Assignment.Opened {} [] := rfl
        have hopened : Assignment.Opened assigned ([] ++ assignmentOrder slots) :=
          hempty.assignAll Assignment.covers_nil hassign
        rw [List.nil_append] at hcovers hopened
        simp only [hassign, mapM_placeRange hcovers.found, Option.bind_eq_bind, Option.bind_some,
          Option.some.injEq, Except.ok.injEq, Topology.cluster.injEq] at h
        rcases h with ⟨rfl, rfl⟩
        rw [assignmentOrder_relocate, firstsBy_map, List.map_map]
        exact hopened

/-! ## What clients read -/

/-- The ID under which a mapped node is listed. -/
def LocalNode.announcedId (node : LocalNode) : Bytes :=
  node.nodeId.getD (asBytes s!"evilresp-{node.localAddr.port}")

theorem LocalNode.announcedId_ne (node : LocalNode) : node.announcedId ≠ [] := by
  have hne := node.nodeId_ne
  unfold announcedId
  cases hid : node.nodeId with
  | none =>
      intro hnil
      have htext : s!"evilresp-{node.localAddr.port}" = "" := asBytes_injective hnil
      have hlist := congrArg String.toList htext
      simp [String.toList_append, toString] at hlist
  | some id =>
      rintro rfl
      exact hne hid

/-- A mapped node as its clients read it. -/
def LocalNode.announced (node : LocalNode) : LocalNode where
  upstream := { node.localAddr.endpoint with port := node.localAddr.port % 2 ^ 16 }
  localAddr := unmapped
  nodeId := some node.announcedId
  port_lt := Nat.mod_lt _ (by decide)
  nodeId_ne := by simpa using node.announcedId_ne

theorem LocalNode.announced_upstream {node : LocalNode} (h : node.localAddr.port < 2 ^ 16) :
    node.announced.upstream = node.localAddr.endpoint := by
  show { node.localAddr.endpoint with port := node.localAddr.port % 2 ^ 16 } = _
  rw [Nat.mod_eq_of_lt h]
  rfl

/-- A range as another proxy discovers it. -/
def LocalSlotRange.announced (slot : LocalSlotRange) : LocalSlotRange :=
  { slot with
    primary := slot.primary.announced
    replicas := slot.replicas.map LocalNode.announced }

theorem toInt_ofNat {n : Nat} (h : n < 2 ^ 16) : (Int64.ofNat n).toInt = n :=
  Int64.toInt_ofNat_of_lt (by omega)

theorem nodeHost_display (bootstrap : TcpEndpoint) (addr : SocketAddr) :
    nodeHost bootstrap (.bulkString (some (asBytes (String.ofList addr.ip.display)))) =
      .ok addr.endpoint.host := by
  have hplain := addr.plainHost
  have hknown : ¬ (addr.endpoint.host.isEmpty = true ∨ addr.endpoint.host = "?") := by
    rw [not_or]
    constructor
    · intro hempty
      apply hplain.nonempty
      have hnil : addr.endpoint.host = "" := by simpa using hempty
      rw [hnil]
      rfl
    · intro hunknown
      have hmark : '?' ∈ addr.ip.display := by
        have htext : String.ofList addr.ip.display = "?" := hunknown
        rw [← String.toList_ofList (l := addr.ip.display), htext]
        decide
      exact absurd (IpAddr.isAddressChar_display hmark) (by unfold IpAddr.IsAddressChar; decide)
  show Except.ok (if _ then _ else _) = _
  rw [fromUtf8Lossy_asBytes]
  exact congrArg Except.ok (if_neg hknown)

/-- A node is read as it was announced. -/
theorem parseNode_toRespFrame (bootstrap : TcpEndpoint) {node : LocalNode}
    (h : node.localAddr.port < 2 ^ 16) :
    parseNode bootstrap node.toRespFrame = .ok node.announced := by
  have hint := toInt_ofNat h
  have hport : nodePort (.integer (Int64.ofNat node.localAddr.port)) =
      .ok ⟨node.localAddr.port, h⟩ := by
    have hrange : 0 ≤ (Int64.ofNat node.localAddr.port).toInt ∧
        (Int64.ofNat node.localAddr.port).toInt < 2 ^ 16 := by
      rw [hint]
      omega
    simp only [nodePort, dif_pos hrange]
    congr
    rw [hint, Int.toNat_natCast]
  have hid : (nodeIdBytes (some (.bulkString (some node.announcedId)))).filter (· ≠ []) =
      some node.announcedId := by
    simp [nodeIdBytes, Option.filter, node.announcedId_ne]
  simp only [LocalNode.toRespFrame, parseNode, nodeHost_display, hport, bind, Except.bind]
  congr 1
  simp only [LocalNode.announced, LocalNode.mk.injEq]
  refine ⟨?_, trivial, hid⟩
  rw [Nat.mod_eq_of_lt h]

theorem parseSlotRange_toRespFrame (bootstrap : TcpEndpoint) {slot : LocalSlotRange}
    (hstart : slot.start < 2 ^ 16) (hstop : slot.stop < 2 ^ 16)
    (hports : ∀ node ∈ slot.nodes, node.localAddr.port < 2 ^ 16) :
    parseSlotRange bootstrap slot.toRespFrame = .ok slot.announced := by
  have hslot : ∀ {n : Nat} (name : String), n < 2 ^ 16 →
      asSlot (some (.integer (Int64.ofNat n))) name = .ok n := by
    intro n name hn
    have hint := toInt_ofNat hn
    simp only [asSlot, hint, Int.toNat_natCast]
    rw [if_pos (by omega)]
  have hreplicas : (slot.replicas.map LocalNode.toRespFrame).mapM (parseNode bootstrap) =
      .ok (slot.replicas.map LocalNode.announced) := by
    apply mapM_map_eq_ok
    intro node hnode
    exact parseNode_toRespFrame bootstrap (hports node (List.mem_cons_of_mem _ hnode))
  have hprimary := parseNode_toRespFrame bootstrap (hports slot.primary List.mem_cons_self)
  simp only [LocalSlotRange.toRespFrame, LocalSlotRange.nodes, List.map_cons, List.cons_append,
    List.nil_append, parseSlotRange, hslot _ hstart, hslot _ hstop, hprimary, hreplicas, bind,
    Except.bind]
  rfl

/-- The ranges that were read have slots of 16 bits. -/
theorem slots_lt_of_parseClusterSlots {items : List Frame} {bootstrap : TcpEndpoint}
    {slots : List LocalSlotRange} (h : parseClusterSlots items bootstrap = .ok slots) :
    ∀ slot ∈ slots, slot.start < 2 ^ 16 ∧ slot.stop < 2 ^ 16 := by
  have hslot : ∀ {frame : Option Frame} {name : String} {n : Nat}, asSlot frame name = .ok n →
      n < 2 ^ 16 := by
    intro frame name n hn
    unfold asSlot at hn
    split at hn
    · split_ifs at hn
      cases hn
      omega
    · cases hn
  intro slot hmem
  rcases exists_of_mem_mapM h hmem with ⟨item, -, hitem⟩
  unfold parseSlotRange at hitem
  split at hitem
  · rcases bind_eq_ok_iff.mp hitem with ⟨start, hstart, hitem⟩
    rcases bind_eq_ok_iff.mp hitem with ⟨stop, hstop, hitem⟩
    rcases bind_eq_ok_iff.mp hitem with ⟨primary, -, hitem⟩
    rcases bind_eq_ok_iff.mp hitem with ⟨replicas, -, hok⟩
    cases hok
    exact ⟨hslot hstart, hslot hstop⟩
  · cases hitem
  · cases hitem

section

variable {listen : SocketAddr} {slots mapped : List LocalSlotRange} {targets : List ProxyTarget}

/-- The reply that clients get is read as the announced ranges. -/
theorem Listeners.parseClusterSlots_announced (h : Listeners listen slots targets mapped)
    (hslots : ∀ slot ∈ slots, slot.start < 2 ^ 16 ∧ slot.stop < 2 ^ 16) (bootstrap : TcpEndpoint) :
    parseClusterSlots (mapped.map LocalSlotRange.toRespFrame) bootstrap =
      .ok (mapped.map LocalSlotRange.announced) := by
  apply mapM_map_eq_ok
  intro slot hslot
  have hports : ∀ node ∈ slot.nodes, node.localAddr.port < 2 ^ 16 := by
    intro node hnode
    exact h.port_lt (List.mem_flatMap.mpr ⟨slot, hslot, hnode⟩)
  rcases h.kept with ⟨place, rfl⟩
  rcases List.mem_map.mp hslot with ⟨original, horiginal, rfl⟩
  rcases hslots original horiginal with ⟨hstart, hstop⟩
  exact parseSlotRange_toRespFrame bootstrap hstart hstop hports

end

/-- A tree of arrays over frames without text, of a bounded depth. -/
structure Textless (n : Nat) (f : Frame) : Prop where
  inlineFree : f.InlineFree
  crlfFree : f.CrlfFree
  depth : f.depth ≤ n

theorem textless_leaf {f : Frame} (hchildren : f.children = []) (hinline : ∀ parts, f ≠ .inline parts)
    (htext : f.text = none) : Textless 1 f where
  inlineFree := Frame.inlineFree_iff.mpr ⟨hinline, by simp [hchildren]⟩
  crlfFree := Frame.textAll_iff.mpr ⟨by simp [htext], by simp [hchildren]⟩
  depth := Frame.depth_le_succ (by simp [hchildren])

theorem textless_array {n : Nat} {items : List Frame} (h : ∀ item ∈ items, Textless n item) :
    Textless (n + 1) (.array (some items)) where
  inlineFree := Frame.inlineFree_iff.mpr ⟨by simp, fun item hitem => (h item hitem).inlineFree⟩
  crlfFree := Frame.textAll_iff.mpr ⟨by simp [Frame.text], fun item hitem => (h item hitem).crlfFree⟩
  depth := Frame.depth_le_succ fun item hitem => (h item hitem).depth

theorem Textless.mono {m n : Nat} {f : Frame} (h : Textless m f) (hle : m ≤ n) : Textless n f where
  inlineFree := h.inlineFree
  crlfFree := h.crlfFree
  depth := h.depth.trans hle

theorem LocalNode.textless_toRespFrame (node : LocalNode) : Textless 2 node.toRespFrame := by
  apply textless_array
  intro item hitem
  simp only [List.mem_cons, List.not_mem_nil, or_false] at hitem
  rcases hitem with rfl | rfl | rfl
  · exact textless_leaf rfl (by simp) rfl
  · exact textless_leaf rfl (by simp) rfl
  · exact textless_leaf rfl (by simp) rfl

theorem LocalSlotRange.textless_toRespFrame (slot : LocalSlotRange) :
    Textless 3 slot.toRespFrame := by
  apply textless_array
  intro item hitem
  have hleaf (n : Int64) : Textless 2 (.integer n) :=
    (textless_leaf rfl (by simp) rfl).mono (by decide)
  rcases List.mem_append.mp hitem with hslot | hnode
  · simp only [List.mem_cons, List.not_mem_nil, or_false] at hslot
    rcases hslot with rfl | rfl
    · exact hleaf _
    · exact hleaf _
  · rcases List.mem_map.mp hnode with ⟨node, -, rfl⟩
    exact node.textless_toRespFrame

/-- The reply that clients get is read back from the wire. -/
theorem readSlots_encode (debugFrame : Frame → String) (bootstrap : TcpEndpoint)
    (mapped : List LocalSlotRange)
    (hsize : (Frame.array (some (mapped.map LocalSlotRange.toRespFrame))).encode.length ≤
      maxFrameBytes) :
    readSlots debugFrame bootstrap
        (Frame.array (some (mapped.map LocalSlotRange.toRespFrame))).encode =
      parseClusterSlots (mapped.map LocalSlotRange.toRespFrame) bootstrap := by
  have hreply : Textless 4 (.array (some (mapped.map LocalSlotRange.toRespFrame))) := by
    apply textless_array
    intro item hitem
    rcases List.mem_map.mp hitem with ⟨slot, -, rfl⟩
    exact slot.textless_toRespFrame
  have hparse := parseFrame_encode hreply.inlineFree hreply.crlfFree
    (hreply.depth.trans (by decide)) hsize
  rw [readSlots, hparse]
  rfl

/-! ## Routes -/

section

variable {listen : SocketAddr} {slots mapped : List LocalSlotRange} {targets : List ProxyTarget}

/-- The listener of a node is that of one target, which forwards to the first node that is
linked to it. -/
structure Routes (targets : List ProxyTarget) (mapped : List LocalSlotRange) (node first : LocalNode) :
    Prop where
  opened : first ∈ firstsBy LocalNode.localAddr (assignmentOrder mapped)
  linked : nodeKeys.Linked (clusterNodes mapped) node first
  served : first.target ∈ targets
  listens : first.target.listen = .tcp node.localAddr.endpoint
  alone : ∀ target ∈ targets, target.listen = .tcp node.localAddr.endpoint →
    target = first.target

theorem Listeners.nodup_listen (h : Listeners listen slots targets mapped) :
    (targets.map ProxyTarget.listen).Nodup := by
  rw [h.ports]
  apply List.Nodup.map_on _ List.nodup_range
  intro i _ j _ heq
  have hport : listen.port + i = listen.port + j :=
    congrArg TcpEndpoint.port (Endpoint.tcp.inj heq)
  omega

theorem Listeners.routes (h : Listeners listen slots targets mapped)
    (htargets : targets =
      (firstsBy LocalNode.localAddr (assignmentOrder mapped)).map LocalNode.target)
    {node : LocalNode} (hnode : node ∈ clusterNodes mapped) :
    ∃ first, Routes targets mapped node first := by
  rcases exists_mem_firstsBy LocalNode.localAddr (mem_clusterNodes.mp hnode) with ⟨first, hfirst, hsame⟩
  have hserved : first.target ∈ targets := by
    rw [htargets]
    exact List.mem_map_of_mem hfirst
  have hlistens : first.target.listen = .tcp node.localAddr.endpoint := by
    rw [LocalNode.target, hsame]
  refine ⟨first, hfirst, ?_, hserved, hlistens, ?_⟩
  · have hmember := mem_clusterNodes.mpr (mem_of_mem_firstsBy hfirst)
    exact h.chained node hnode first hmember hsame.symm
  · intro target hmem hlisten
    exact List.inj_on_of_nodup_map h.nodup_listen hmem hserved (hlisten.trans hlistens.symm)

end

/-- A cluster is discovered from ranges that were read. -/
theorem discover_cluster {proxy listen : Endpoint} {socketAddr : String → AppResult SocketAddr}
    {fetchClusterSlots : TcpEndpoint → AppResult (List LocalSlotRange)}
    {targets : List ProxyTarget} {mapped : List LocalSlotRange}
    (h : discover proxy listen socketAddr fetchClusterSlots =
      some (.ok (.cluster targets mapped))) :
    ∃ server addr slots, proxy = .tcp server ∧ fetchClusterSlots server = .ok slots ∧ slots ≠ [] ∧
      mapClusterSlots slots addr = some (.ok (.cluster targets mapped)) := by
  unfold discover at h
  split at h
  · split at h
    · cases h
    · split at h
      · cases h
      · cases h
      · rename_i hne hfetched
        exact ⟨_, _, _, rfl, hfetched, hne, h⟩
  · cases h

theorem readSlots_ok {debugFrame : Frame → String} {bootstrap : TcpEndpoint} {raw : Bytes}
    {slots : List LocalSlotRange} (h : readSlots debugFrame bootstrap raw = .ok slots) :
    ∃ items, parseClusterSlots items bootstrap = .ok slots := by
  rcases bind_eq_ok_iff.mp h with ⟨frame, -, hframe⟩
  split at hframe
  · exact ⟨_, hframe⟩
  · cases hframe
  · cases hframe

/-- Whatever cluster a server describes, the clients of the proxy read the same ranges, in the
same order, with every node at a listener; and the listener they find a node at is that of
exactly one target, whose upstream is an address of that node. -/
theorem advertised_routes (debugFrame : Frame → String) (proxy listen : Endpoint)
    (socketAddr : String → AppResult SocketAddr) (answer : TcpEndpoint → Bytes)
    (targets : List ProxyTarget) (mapped : List LocalSlotRange) (reply : Frame)
    (client : TcpEndpoint)
    (hdiscover : discover proxy listen socketAddr
        (fun server => readSlots debugFrame server (answer server)) =
      some (.ok (.cluster targets mapped)))
    (hreply : (Topology.cluster targets mapped).localSlotsResponse = some reply)
    (hsize : reply.encode.length ≤ maxFrameBytes) :
    readSlots debugFrame client reply.encode = .ok (mapped.map LocalSlotRange.announced) ∧
    (∃ server slots place, proxy = .tcp server ∧
      readSlots debugFrame server (answer server) = .ok slots ∧
      mapped = slots.map (LocalSlotRange.relocate place)) ∧
    ∀ slot ∈ mapped, ∀ node ∈ slot.nodes,
      node.announced.upstream = node.localAddr.endpoint ∧
      ∃ first, Routes targets mapped node first := by
  rcases discover_cluster hdiscover with ⟨server, addr, slots, rfl, hread, -, hmap⟩
  have hlisteners := listeners_of_mapClusterSlots hmap
  have htargets := targets_of_mapClusterSlots hmap
  rcases readSlots_ok hread with ⟨items, hitems⟩
  obtain rfl := Option.some.inj hreply
  refine ⟨?_, ?_, ?_⟩
  · rw [readSlots_encode debugFrame client mapped hsize]
    exact hlisteners.parseClusterSlots_announced (slots_lt_of_parseClusterSlots hitems) client
  · rcases hlisteners.kept with ⟨place, hplace⟩
    exact ⟨server, slots, place, rfl, hread, hplace⟩
  · intro slot hslot node hnode
    have hmember : node ∈ clusterNodes mapped := List.mem_flatMap.mpr ⟨slot, hslot, hnode⟩
    exact ⟨LocalNode.announced_upstream (hlisteners.port_lt hmember),
      hlisteners.routes htargets hmember⟩

/-- A primary and a replica of it, on one host. -/
def replicatedAnswer : Bytes :=
  asBytes ("*1\r\n*4\r\n:0\r\n:16383\r\n*3\r\n$9\r\n127.0.0.1\r\n:6379\r\n$1\r\na\r\n" ++
    "*3\r\n$9\r\n127.0.0.1\r\n:6380\r\n$1\r\nb\r\n")

/-- The ranges of the answer, with listeners from one port on. -/
def replicatedSlots (port : Nat) : List LocalSlotRange :=
  [{ start := 0
     stop := 16383
     primary := loopbackNode "127.0.0.1" 6379 (some 97) port
     replicas := [loopbackNode "127.0.0.1" 6380 (some 98) (port + 1)] }]

theorem discover_replicated :
    discover (.tcp { host := "127.0.0.1", port := 6379 })
        (.tcp { host := "127.0.0.1", port := 7000 })
        (fun _ => .ok { unmapped with port := 7000 })
        (fun server => readSlots (fun _ => "") server replicatedAnswer) =
      some (.ok (.cluster ((clusterNodes (replicatedSlots 7000)).map LocalNode.target)
        (replicatedSlots 7000))) := by
  rfl

/-- What clients of a small cluster read. -/
theorem advertised_routes_replicated :
    ∃ reply, (Topology.cluster ((clusterNodes (replicatedSlots 7000)).map LocalNode.target)
        (replicatedSlots 7000)).localSlotsResponse = some reply ∧
      readSlots (fun _ => "") { host := "127.0.0.1", port := 7000 } reply.encode =
        .ok ((replicatedSlots 7000).map LocalSlotRange.announced) := by
  refine ⟨_, rfl, ?_⟩
  exact (advertised_routes _ _ _ _ _ _ _ _ _ discover_replicated rfl (by decide +kernel)).1

end EvilResp
