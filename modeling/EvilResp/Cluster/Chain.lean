import EvilResp.Cluster.Routing

/-!
# A proxy behind a proxy

The slots that one proxy announces can be discovered by another.  The second one then listens
for the listeners of the first, one for one and in the same order, exactly if the first
announces its listeners under IDs of their own.

Main results:

- Theorem {lit}`Assignment.exists_assignAll`: where addresses and IDs agree, every node is
  assigned.
- Theorem {lit}`discovery_chains`: when the listeners of two proxies correspond.
-/

namespace EvilResp

open Library
open EvilResp.Resp

/-! ## Consistent nodes -/

/-- The address of a node, as its key. -/
abbrev LocalNode.address (node : LocalNode) : String :=
  node.upstream.connectAddr

/-- Nodes have one ID exactly if they have one address, where they have IDs. -/
def Consistent (nodes : List LocalNode) : Prop :=
  ∀ a ∈ nodes, ∀ b ∈ nodes, ∀ i j, a.nodeId = some i → b.nodeId = some j →
    (i = j ↔ a.address = b.address)

namespace Consistent

variable {nodes : List LocalNode}

theorem mono (h : Consistent nodes) {others : List LocalNode} (hsub : others ⊆ nodes) :
    Consistent others :=
  fun a ha b hb => h a (hsub ha) b (hsub hb)

/-- Linked nodes have one address. -/
theorem linked (h : Consistent nodes) {a b : LocalNode} (hlinked : nodeKeys.Linked nodes a b) :
    a.address = b.address := by
  induction hlinked with
  | refl => rfl
  | tail _ hlast ih =>
      rcases hlast with ⟨hb, hc, hkey | ⟨id, hbid, hcid⟩⟩
      · exact ih.trans hkey
      · exact ih.trans ((h _ hb _ hc id id hbid hcid).mp rfl)

end Consistent

namespace Assignment

variable {assigned after : Assignment} {node : LocalNode} {listen : SocketAddr}
  {seen nodes : List LocalNode}

theorem Covers.place_eq (h : Covers listen assigned seen) (hnode : node ∈ seen) :
    assigned.place node = some (assigned.located node) := by
  rcases Option.isSome_iff_exists.mp (h.found node hnode) with ⟨addr, haddr⟩
  rw [located, haddr, Option.getD_some]

/-- Consistent nodes share a listener exactly if they have one address. -/
theorem Covers.located_iff (h : Covers listen assigned seen) (hconsistent : Consistent seen)
    {a b : LocalNode} (ha : a ∈ seen) (hb : b ∈ seen) :
    assigned.located a = assigned.located b ↔ a.address = b.address := by
  constructor
  · intro hsame
    exact hconsistent.linked (h.placed_located.chained a ha b hb hsame)
  · intro haddress
    exact h.placed_located.shared a ha b hb (.inl haddress)

theorem Opened.firsts (hopened : Opened assigned seen) (h : Covers listen assigned seen)
    (hconsistent : Consistent seen) :
    assigned.targets = (firstsBy LocalNode.address seen).map assigned.opens := by
  have hfirsts : firstsBy assigned.located seen = firstsBy LocalNode.address seen :=
    firstsBy_congr fun a ha b hb => h.located_iff hconsistent ha hb
  rw [hopened, hfirsts]

/-- A consistent node is assigned, if there is a port for it. -/
theorem exists_assign (h : Covers listen assigned seen) (hopened : Opened assigned seen)
    (hconsistent : Consistent (seen ++ [node]))
    (hports : listen.port + (firstsBy LocalNode.address (seen ++ [node])).length ≤ 2 ^ 16) :
    ∃ after, assign listen assigned node = .ok after := by
  have hseen : Consistent seen := hconsistent.mono (List.subset_append_left _ _)
  have hself : node ∈ seen ++ [node] := List.mem_append_right _ List.mem_cons_self
  have hold : ∀ {other : LocalNode}, other ∈ seen → other ∈ seen ++ [node] :=
    fun hother => List.mem_append_left _ hother
  have hbyId : ∀ addr, assigned.placeById node = some addr →
      ∃ other ∈ seen, other.address = node.address ∧ assigned.located other = addr := by
    intro addr haddr
    rcases Option.bind_eq_some_iff.mp haddr with ⟨id, hid, hlookup⟩
    rcases (h.ids id addr).mp hlookup with ⟨other, hother, hoid, hplace⟩
    rw [h.place_eq hother, Option.some.injEq] at hplace
    exact ⟨other, hother, (hconsistent other (hold hother) node hself id id hoid hid).mp rfl, hplace⟩
  have hbyAddress : ∀ addr, assigned.place node = some addr →
      ∃ other ∈ seen, other.address = node.address ∧ assigned.located other = addr := by
    intro addr haddr
    rcases h.endpoints node addr haddr with ⟨other, hother, hkey⟩
    have hplace : assigned.place other = some addr := by rw [place, hkey]; exact haddr
    rw [h.place_eq hother, Option.some.injEq] at hplace
    exact ⟨other, hother, hkey, hplace⟩
  -- The listener that a node joins has no ID but its own.
  have hjoin : ∀ addr,
      (∃ other ∈ seen, other.address = node.address ∧ assigned.located other = addr) →
      ∃ after, assigned.join node addr = .ok after := by
    rintro addr ⟨other, hother, haddress, rfl⟩
    unfold join
    split
    · rename_i id existing hid hlookup
      rcases (h.owners _ existing).mp hlookup with ⟨owner, howner, hoid, hplace⟩
      rw [h.place_eq howner, Option.some.injEq] at hplace
      have hshared := (h.located_iff hseen howner hother).mp hplace
      have hsame : existing = id :=
        (hconsistent owner (hold howner) node hself existing id hoid hid).mpr
          (hshared.trans haddress)
      rw [if_neg (not_not.mpr hsame)]
      exact ⟨_, rfl⟩
    · exact ⟨_, rfl⟩
  unfold assign
  cases hid : assigned.placeById node with
  | some byId =>
      cases hplace : assigned.place node with
      | some byAddress =>
          rcases hbyId byId hid with ⟨a, ha, hakey, rfl⟩
          rcases hbyAddress byAddress hplace with ⟨b, hb, hbkey, rfl⟩
          have hsame := (h.located_iff hseen hb ha).mpr (hbkey.trans hakey.symm)
          dsimp only
          rw [if_neg (not_not.mpr hsame)]
          exact hjoin _ ⟨a, ha, hakey, rfl⟩
      | none => exact hjoin byId (hbyId _ hid)
  | none =>
      cases hplace : assigned.place node with
      | some byAddress => exact hjoin byAddress (hbyAddress _ hplace)
      | none =>
          -- A new address is one more listener.
          have hnew : node.address ∉ seen.map LocalNode.address := by
            intro hmem
            rcases List.mem_map.mp hmem with ⟨other, hother, hkey⟩
            have hfound := h.place_eq hother
            rw [place, show other.upstream.connectAddr = node.upstream.connectAddr from hkey,
              ← place, hplace] at hfound
            cases hfound
          rw [firstsBy_snoc_of_not_mem hnew, List.length_append, List.length_singleton] at hports
          have hlength : assigned.targets.length = (firstsBy LocalNode.address seen).length := by
            rw [hopened.firsts h hseen, List.length_map]
          simp only [assignPort]
          rw [if_neg (by omega), if_neg (by omega)]
          exact ⟨_, rfl⟩

/-- Consistent nodes are assigned, if there are ports for them. -/
theorem exists_assignAll (hconsistent : Consistent nodes)
    (hports : listen.port + (firstsBy LocalNode.address nodes).length ≤ 2 ^ 16) :
    ∃ assigned, nodes.foldlM (Assignment.assign listen) {} = .ok assigned ∧
      Covers listen assigned nodes ∧ Opened assigned nodes := by
  induction nodes using List.reverseRecOn with
  | nil => exact ⟨{}, rfl, covers_nil, rfl⟩
  | append_singleton nodes node ih =>
      have hfewer : (firstsBy LocalNode.address nodes).length ≤
          (firstsBy LocalNode.address (nodes ++ [node])).length := by
        rw [firstsBy_snoc]
        split_ifs
        · exact le_refl _
        · rw [List.length_append]
          omega
      rcases ih (hconsistent.mono (List.subset_append_left _ _)) (by omega) with
        ⟨assigned, hassigned, hcovers, hopened⟩
      rcases exists_assign hcovers hopened hconsistent hports with ⟨after, hafter⟩
      refine ⟨after, ?_, hcovers.assign hafter, hopened.assign hcovers hafter⟩
      rw [List.foldlM_append, hassigned]
      simp only [List.foldlM_cons, List.foldlM_nil, ok_bind, hafter]
      rfl

end Assignment

/-! ## Announced nodes -/

/-- Nodes are announced under one ID exactly if they share a listener. -/
def AnnouncedApart (mapped : List LocalSlotRange) : Prop :=
  ∀ a ∈ clusterNodes mapped, ∀ b ∈ clusterNodes mapped,
    a.localAddr = b.localAddr ↔ a.announcedId = b.announcedId

theorem assignmentOrder_announced (mapped : List LocalSlotRange) :
    assignmentOrder (mapped.map LocalSlotRange.announced) =
      (assignmentOrder mapped).map LocalNode.announced := by
  simp only [assignmentOrder, List.map_append, List.map_map, List.flatMap_map, List.map_flatMap]
  rfl

section

variable {listen : SocketAddr} {slots mapped : List LocalSlotRange} {targets : List ProxyTarget}

/-- Listeners with one address are one listener. -/
theorem Listeners.localAddr_inj (h : Listeners listen slots targets mapped) {a b : LocalNode}
    (ha : a ∈ clusterNodes mapped) (hb : b ∈ clusterNodes mapped)
    (hsame : a.localAddr.endpoint = b.localAddr.endpoint) : a.localAddr = b.localAddr := by
  have hnodup := h.nodup_listen
  rw [h.appear] at hnodup
  have hmem : ∀ {node : LocalNode}, node ∈ clusterNodes mapped →
      node.localAddr ∈ ((assignmentOrder mapped).map LocalNode.localAddr).eraseDups := by
    intro node hnode
    exact List.mem_eraseDups.mpr (List.mem_map_of_mem (mem_clusterNodes.mp hnode))
  exact List.inj_on_of_nodup_map hnodup (hmem ha) (hmem hb) (congrArg Endpoint.tcp hsame)

/-- Announced nodes have one address exactly if they share a listener. -/
theorem Listeners.announced_address (h : Listeners listen slots targets mapped) {a b : LocalNode}
    (ha : a ∈ clusterNodes mapped) (hb : b ∈ clusterNodes mapped) :
    a.announced.upstream.connectAddr = b.announced.upstream.connectAddr ↔
      a.localAddr = b.localAddr := by
  have hports := And.intro (h.port_lt ha) (h.port_lt hb)
  rw [LocalNode.announced_upstream hports.1, LocalNode.announced_upstream hports.2]
  constructor
  · intro htext
    exact h.localAddr_inj ha hb
      ((SocketAddr.endpoint_eq_iff default hports.1 hports.2).mpr htext)
  · intro hsame
    rw [hsame]

/-- Nodes that are announced apart are consistent. -/
theorem Listeners.consistent_announced (h : Listeners listen slots targets mapped)
    (happart : AnnouncedApart mapped) :
    Consistent ((assignmentOrder mapped).map LocalNode.announced) := by
  intro a ha b hb i j hi hj
  rcases List.mem_map.mp ha with ⟨c, hc, rfl⟩
  rcases List.mem_map.mp hb with ⟨d, hd, rfl⟩
  obtain rfl := Option.some.inj hi
  obtain rfl := Option.some.inj hj
  have hmembers := And.intro (mem_clusterNodes.mpr hc) (mem_clusterNodes.mpr hd)
  exact ((happart c hmembers.1 d hmembers.2).symm).trans
    (h.announced_address hmembers.1 hmembers.2).symm

/-- The second proxy listens for the listeners of the first, in their order. -/
theorem Listeners.mapClusterSlots_announced (h : Listeners listen slots targets mapped)
    (htargets : targets =
      (firstsBy LocalNode.localAddr (assignmentOrder mapped)).map LocalNode.target)
    (happart : AnnouncedApart mapped) {outer : SocketAddr} (hnonzero : outer.port ≠ 0)
    (hports : outer.port + targets.length ≤ 2 ^ 16) :
    ∃ outerTargets outerMapped,
      mapClusterSlots (mapped.map LocalSlotRange.announced) outer =
        some (.ok (.cluster outerTargets outerMapped)) ∧
      outerTargets.map ProxyTarget.upstream = targets.map ProxyTarget.listen := by
  have hconsistent := h.consistent_announced happart
  have hfirsts : firstsBy LocalNode.address ((assignmentOrder mapped).map LocalNode.announced) =
      (firstsBy LocalNode.localAddr (assignmentOrder mapped)).map LocalNode.announced := by
    rw [firstsBy_map]
    congr 1
    apply firstsBy_congr
    intro a ha b hb
    exact h.announced_address (mem_clusterNodes.mpr ha) (mem_clusterNodes.mpr hb)
  have hlength : (firstsBy LocalNode.address
      ((assignmentOrder mapped).map LocalNode.announced)).length = targets.length := by
    rw [hfirsts, htargets, List.length_map, List.length_map]
  rcases Assignment.exists_assignAll hconsistent (by rw [hlength]; exact hports) with
    ⟨assigned, hassigned, hcovers, hopened⟩
  have hupstream : assigned.targets.map ProxyTarget.upstream =
      targets.map ProxyTarget.listen := by
    rw [hopened.firsts hcovers hconsistent, hfirsts, htargets, List.map_map, List.map_map,
      List.map_map]
    apply List.map_congr_left
    intro node hnode
    have hmember := mem_clusterNodes.mpr (mem_of_mem_firstsBy hnode)
    exact congrArg Endpoint.tcp (LocalNode.announced_upstream (h.port_lt hmember))
  rw [← assignmentOrder_announced] at hassigned hcovers
  refine ⟨assigned.targets, (mapped.map LocalSlotRange.announced).map
    (LocalSlotRange.relocate assigned.located), ?_, hupstream⟩
  rw [mapClusterSlots, if_neg hnonzero, hassigned]
  simp only [mapM_placeRange hcovers.found]
  rfl

/-- Where the second proxy listens for the listeners of the first, these are announced apart. -/
theorem Listeners.announcedApart (h : Listeners listen slots targets mapped)
    {outer : SocketAddr} {outerTargets : List ProxyTarget} {outerMapped : List LocalSlotRange}
    (houter : mapClusterSlots (mapped.map LocalSlotRange.announced) outer =
      some (.ok (.cluster outerTargets outerMapped)))
    (hupstream : outerTargets.map ProxyTarget.upstream = targets.map ProxyTarget.listen) :
    AnnouncedApart mapped := by
  have hlisteners := listeners_of_mapClusterSlots houter
  have htargets := targets_of_mapClusterSlots houter
  rcases hlisteners.kept with ⟨place, rfl⟩
  have horder : assignmentOrder ((mapped.map LocalSlotRange.announced).map
      (LocalSlotRange.relocate place)) =
        (assignmentOrder mapped).map fun node => node.announced.relocate place := by
    rw [assignmentOrder_relocate, assignmentOrder_announced, List.map_map]
    rfl
  have hmember : ∀ {node : LocalNode}, node ∈ clusterNodes mapped →
      node.announced.relocate place ∈ clusterNodes
        ((mapped.map LocalSlotRange.announced).map (LocalSlotRange.relocate place)) := by
    intro node hnode
    rw [mem_clusterNodes, horder]
    exact List.mem_map_of_mem (mem_clusterNodes.mp hnode)
  have hshared : ∀ {a b : LocalNode}, a ∈ clusterNodes mapped → b ∈ clusterNodes mapped →
      a.localAddr = b.localAddr → place a.announced = place b.announced := by
    intro a b ha hb hsame
    exact hlisteners.shared _ (hmember ha) _ (hmember hb)
      (.inl ((h.announced_address ha hb).mpr hsame))
  -- Every listener of the first proxy is the upstream of the first node that the second one
  -- found it at.
  have hfound : ∀ {node : LocalNode}, node ∈ clusterNodes mapped →
      ∃ first ∈ firstsBy (fun node => place node.announced) (assignmentOrder mapped),
        first.localAddr = node.localAddr := by
    intro node hnode
    have hlisted := h.listed node hnode
    rw [← hupstream, htargets, horder, firstsBy_map, List.map_map, List.map_map] at hlisted
    rcases List.mem_map.mp hlisted with ⟨first, hfirst, hsame⟩
    have hfirst' := mem_clusterNodes.mpr (mem_of_mem_firstsBy hfirst)
    have hendpoint : first.announced.upstream = node.localAddr.endpoint := Endpoint.tcp.inj hsame
    rw [LocalNode.announced_upstream (h.port_lt hfirst')] at hendpoint
    exact ⟨first, hfirst, h.localAddr_inj hfirst' hnode hendpoint⟩
  have hapart : ∀ {a b : LocalNode}, a ∈ clusterNodes mapped → b ∈ clusterNodes mapped →
      place a.announced = place b.announced → a.localAddr = b.localAddr := by
    intro a b ha hb hsame
    rcases hfound ha with ⟨c, hc, hca⟩
    rcases hfound hb with ⟨d, hd, hdb⟩
    have hplaces : place c.announced = place d.announced := by
      rw [hshared (mem_clusterNodes.mpr (mem_of_mem_firstsBy hc)) ha hca, hsame,
        hshared (mem_clusterNodes.mpr (mem_of_mem_firstsBy hd)) hb hdb]
    have hcd : c = d := eq_of_mem_firstsBy hc hd hplaces
    rw [← hca, hcd, hdb]
  intro a ha b hb
  constructor
  · intro hsame
    exact hlisteners.single _ (hmember ha) _ (hmember hb) (hshared ha hb hsame) _ _ rfl rfl
  · intro hid
    apply hapart ha hb
    exact hlisteners.shared _ (hmember ha) _ (hmember hb)
      (.inr ⟨a.announcedId, rfl, congrArg some hid.symm⟩)

end

/-- The clients of a proxy may be a proxy again.  It then discovers the same ranges, and it
listens for the listeners of the first one, one for one and in the same order, exactly if these
are announced apart: under one ID each, and under different ones. -/
theorem discovery_chains (debugFrame : Frame → String) (proxy listen : Endpoint)
    (socketAddr : String → AppResult SocketAddr) (answer : TcpEndpoint → Bytes)
    (targets : List ProxyTarget) (mapped : List LocalSlotRange) (reply : Frame)
    (gate outer : TcpEndpoint) (addr : SocketAddr)
    (hdiscover : discover proxy listen socketAddr
        (fun server => readSlots debugFrame server (answer server)) =
      some (.ok (.cluster targets mapped)))
    (hreply : (Topology.cluster targets mapped).localSlotsResponse = some reply)
    (hsize : reply.encode.length ≤ maxFrameBytes)
    (houter : socketAddr outer.connectAddr = .ok addr) (hnonzero : addr.port ≠ 0)
    (hports : addr.port + targets.length ≤ 2 ^ 16) :
    AnnouncedApart mapped ↔
      ∃ outerTargets outerMapped,
        discover (.tcp gate) (.tcp outer) socketAddr
            (fun server => readSlots debugFrame server reply.encode) =
          some (.ok (.cluster outerTargets outerMapped)) ∧
        outerTargets.map ProxyTarget.upstream = targets.map ProxyTarget.listen := by
  rcases discover_cluster hdiscover with ⟨server, inner, slots, rfl, hread, hne, hmap⟩
  have hlisteners := listeners_of_mapClusterSlots hmap
  have htargets := targets_of_mapClusterSlots hmap
  rcases readSlots_ok hread with ⟨items, hitems⟩
  obtain rfl := Option.some.inj hreply
  have hslots : readSlots debugFrame gate
      (Frame.array (some (mapped.map LocalSlotRange.toRespFrame))).encode =
        .ok (mapped.map LocalSlotRange.announced) := by
    rw [readSlots_encode debugFrame gate mapped hsize]
    exact hlisteners.parseClusterSlots_announced (slots_lt_of_parseClusterSlots hitems) gate
  have hmapped : ∃ first rest, mapped.map LocalSlotRange.announced = first :: rest := by
    rcases hlisteners.kept with ⟨place, rfl⟩
    cases slots with
    | nil => exact absurd rfl hne
    | cons slot slots => exact ⟨_, _, rfl⟩
  have hsecond : discover (.tcp gate) (.tcp outer) socketAddr
      (fun server => readSlots debugFrame server
        (Frame.array (some (mapped.map LocalSlotRange.toRespFrame))).encode) =
        mapClusterSlots (mapped.map LocalSlotRange.announced) addr := by
    rcases hmapped with ⟨first, rest, hsplit⟩
    rw [hsplit] at hslots ⊢
    simp only [discover, houter, hslots]
  rw [hsecond]
  constructor
  · intro happart
    exact hlisteners.mapClusterSlots_announced htargets happart hnonzero hports
  · rintro ⟨outerTargets, outerMapped, hok, hupstream⟩
    exact hlisteners.announcedApart hok hupstream

instance (mapped : List LocalSlotRange) : Decidable (AnnouncedApart mapped) := by
  unfold AnnouncedApart
  infer_instance

/-- Two proxies in a row, on two hosts. -/
theorem discovery_chains_replicated :
    ∃ reply outerTargets outerMapped,
      (Topology.cluster ((clusterNodes (replicatedSlots 7000)).map LocalNode.target)
        (replicatedSlots 7000)).localSlotsResponse = some reply ∧
      discover (.tcp { host := "inner", port := 7000 })
          (.tcp { host := "127.0.0.1", port := 7000 })
          (fun _ => .ok { unmapped with port := 7000 })
          (fun server => readSlots (fun _ => "") server reply.encode) =
        some (.ok (.cluster outerTargets outerMapped)) ∧
      outerTargets.map ProxyTarget.upstream =
        ((clusterNodes (replicatedSlots 7000)).map LocalNode.target).map ProxyTarget.listen := by
  have hchains := discovery_chains _ _ _ _ _ _ _ _ { host := "inner", port := 7000 }
    { host := "127.0.0.1", port := 7000 } _ discover_replicated rfl (by decide +kernel) rfl
    (by decide) (by decide)
  rcases hchains.mp (by decide) with ⟨outerTargets, outerMapped, hsecond, hupstream⟩
  exact ⟨_, outerTargets, outerMapped, rfl, hsecond, hupstream⟩

/-- One node is listed without its ID: the second proxy is told two IDs for one listener. -/
example : ¬ AnnouncedApart [{ start := 0
                              stop := 16383
                              primary := loopbackNode "a" 6379 (some 97) 7000
                              replicas := [loopbackNode "a" 6379 none 7000] }] := by
  decide

end EvilResp
