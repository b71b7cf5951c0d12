import EvilResp.Cluster.Discovery
import EvilResp.Library.Grouping

/-!
# The assignment of listeners

Nodes with one address or one ID are one node, and so are the nodes at the ends of a
chain of these.  The assignment keeps three maps that agree on every node seen so far,
and its ports follow the order in which the nodes appear.

Main results:

- Theorem {lit}`Assignment.Covers.assign`: one node keeps the maps consistent.
- Theorem {lit}`mapClusterSlots_assigned`: every node of a mapped cluster has one of the
  listeners, shared by exactly the nodes that are linked to it.
-/

namespace EvilResp

open Library

/-- A node is identified by its address and, where it has one, its ID. -/
def nodeKeys : Keyed LocalNode String Bytes where
  key node := node.upstream.connectAddr
  tag node := node.nodeId

namespace Assignment

/-! ## What one node changes -/

section

variable {assigned after : Assignment} {node : LocalNode} {addr : SocketAddr}

@[simp] theorem record_targets : (assigned.record node addr).targets = assigned.targets := by
  unfold record
  split <;> rfl

theorem record_localByUpstream : (assigned.record node addr).localByUpstream =
    insertKey node.upstream.connectAddr addr assigned.localByUpstream := by
  unfold record
  split <;> rfl

@[simp] theorem place_record_self : (assigned.record node addr).place node = some addr := by
  simp [place, record_localByUpstream]

theorem place_record_of_key {other : LocalNode}
    (h : other.upstream.connectAddr = node.upstream.connectAddr) :
    (assigned.record node addr).place other = some addr := by
  rw [place, h]
  exact place_record_self

theorem place_record_of_ne {other : LocalNode}
    (h : other.upstream.connectAddr ≠ node.upstream.connectAddr) :
    (assigned.record node addr).place other = assigned.place other := by
  rw [place, place, record_localByUpstream, lookup_insertKey_ne h]

/-- The targets after a node that opens a new listener. -/
def withTarget (assigned : Assignment) (node : LocalNode) (addr : SocketAddr) : Assignment :=
  { assigned.record node addr with
    targets := assigned.targets ++ [{
      upstream := .tcp node.upstream
      listen := .tcp addr.endpoint }] }

/-- A node joins the listener it matches, which carries no other ID, or opens the next
one if it matches none. -/
theorem assign_cases {listen : SocketAddr} (h : assign listen assigned node = .ok after) :
    (∃ addr, after = assigned.record node addr ∧
      (assigned.place node = some addr ∨ assigned.placeById node = some addr) ∧
      (∀ found, assigned.place node = some found → found = addr) ∧
      (∀ found, assigned.placeById node = some found → found = addr) ∧
      (∀ id existing, node.nodeId = some id →
        assigned.nodeIdByLocal.lookup addr = some existing → existing = id)) ∨
    (assigned.place node = none ∧ assigned.placeById node = none ∧
      listen.port + assigned.targets.length < 2 ^ 16 ∧
      after = assigned.withTarget node (address listen assigned.targets.length)) := by
  have hjoin : ∀ addr, assigned.join node addr = .ok after →
      after = assigned.record node addr ∧ (∀ id existing, node.nodeId = some id →
        assigned.nodeIdByLocal.lookup addr = some existing → existing = id) := by
    intro addr hjoin
    unfold join at hjoin
    split at hjoin
    · rename_i id existing hid hexisting
      by_cases hne : existing ≠ id
      · rw [if_pos hne] at hjoin
        cases hjoin
      · rw [if_neg hne] at hjoin
        cases hjoin
        refine ⟨rfl, fun other found hother hfound => ?_⟩
        rw [hid] at hother
        rw [hexisting] at hfound
        cases hother
        cases hfound
        exact not_not.mp hne
    · rename_i hnone
      cases hjoin
      exact ⟨rfl, fun id existing hid hexisting => absurd hexisting (hnone id existing hid)⟩
  unfold assign at h
  split at h
  · rename_i byId byEndpoint hid hplace
    by_cases hne : byEndpoint ≠ byId
    · rw [if_pos hne] at h
      cases h
    · rw [if_neg hne] at h
      rcases hjoin byId h with ⟨hafter, howner⟩
      refine .inl ⟨byId, hafter, .inr hid, ?_, ?_, howner⟩
      · intro found hfound
        rw [hplace] at hfound
        cases hfound
        exact not_not.mp hne
      · intro found hfound
        rw [hid] at hfound
        cases hfound
        rfl
  · rename_i found hid hplace
    rcases hjoin found h with ⟨hafter, howner⟩
    refine .inl ⟨found, hafter, .inr hid, ?_, ?_, howner⟩
    · simp [hplace]
    · simp [hid]
  · rename_i found hid hplace
    rcases hjoin found h with ⟨hafter, howner⟩
    refine .inl ⟨found, hafter, .inl hplace, ?_, ?_, howner⟩
    · simp [hplace]
    · simp [hid]
  · rename_i hid hplace
    simp only [assignPort] at h
    split at h
    · cases h
    · split at h
      · cases h
      · rename_i hbound
        cases h
        exact .inr ⟨hplace, hid, by omega, rfl⟩

end

/-! ## The maps agree on the nodes seen -/

/-- The three maps list exactly the nodes seen, and the placement by address groups
them. -/
structure Maps (assigned : Assignment) (seen : List LocalNode) : Prop where
  placed : Placed nodeKeys assigned.place seen
  found : ∀ node ∈ seen, (assigned.place node).isSome
  endpoints : ∀ node addr, assigned.place node = some addr →
    ∃ other ∈ seen, other.upstream.connectAddr = node.upstream.connectAddr
  ids : ∀ id addr, assigned.localByNodeId.lookup id = some addr ↔
    ∃ node ∈ seen, node.nodeId = some id ∧ assigned.place node = some addr
  owners : ∀ addr id, assigned.nodeIdByLocal.lookup addr = some id ↔
    ∃ node ∈ seen, node.nodeId = some id ∧ assigned.place node = some addr

variable {assigned after : Assignment} {node : LocalNode} {addr listen : SocketAddr}
  {seen : List LocalNode}

theorem maps_nil : Maps {} [] where
  placed := .nil
  found := by simp
  endpoints := by
    intro node addr h
    cases h
  ids := by simp
  owners := by simp

theorem exists_snoc {p : LocalNode → Prop} :
    (∃ other ∈ seen ++ [node], p other) ↔ (∃ other ∈ seen, p other) ∨ p node := by
  constructor
  · rintro ⟨other, hmem, hother⟩
    rcases List.mem_append.mp hmem with hmem | hmem
    · exact .inl ⟨other, hmem, hother⟩
    · cases List.mem_singleton.mp hmem
      exact .inr hother
  · rintro (⟨other, hmem, hother⟩ | hother)
    · exact ⟨other, List.mem_append_left _ hmem, hother⟩
    · exact ⟨node, List.mem_append_right _ List.mem_cons_self, hother⟩

/-- A map that lists what holds of the nodes seen grows by the entry of one more. -/
theorem lookup_iff_snoc {α β : Type} [BEq α] [LawfulBEq α] {key : α} {value : β}
    {entries : List (α × β)} {P : α → β → LocalNode → Prop}
    (h : ∀ k v, entries.lookup k = some v ↔ ∃ other ∈ seen, P k v other)
    (hself : ∀ k v, P k v node ↔ k = key ∧ v = value)
    (hkey : ∀ v, ∀ other ∈ seen, P key v other → v = value) (k : α) (v : β) :
    (insertKey key value entries).lookup k = some v ↔ ∃ other ∈ seen ++ [node], P k v other := by
  rw [exists_snoc, hself]
  by_cases hk : k = key
  · subst hk
    rw [lookup_insertKey_self, Option.some.injEq]
    constructor
    · intro hv
      exact .inr ⟨rfl, hv.symm⟩
    · rintro (⟨other, hmem, hother⟩ | ⟨-, hv⟩)
      · exact (hkey v other hmem hother).symm
      · exact hv.symm
  · rw [lookup_insertKey_ne hk, h]
    constructor
    · exact .inl
    · rintro (hseen | ⟨hkey, -⟩)
      · exact hseen
      · exact absurd hkey hk

/-- Recording a node keeps the places of the nodes seen. -/
theorem place_record_of_seen (hplace : ∀ found, assigned.place node = some found → found = addr)
    {other : LocalNode} (hfound : (assigned.place other).isSome) :
    (assigned.record node addr).place other = assigned.place other := by
  by_cases hkey : other.upstream.connectAddr = node.upstream.connectAddr
  · have hsame : assigned.place other = assigned.place node := by rw [place, place, hkey]
    rcases Option.isSome_iff_exists.mp hfound with ⟨found, hother⟩
    rw [place_record_of_key hkey, hother, hplace found (hsame ▸ hother)]
  · exact place_record_of_ne hkey

/-- The listeners of the nodes with an ID, after one more node is recorded. -/
theorem Maps.record_ids (h : Maps assigned seen)
    (hkeep : ∀ other ∈ seen, (assigned.record node addr).place other = assigned.place other)
    (hid : ∀ found, assigned.placeById node = some found → found = addr)
    (id : Bytes) (found : SocketAddr) :
    (assigned.record node addr).localByNodeId.lookup id = some found ↔
      ∃ other ∈ seen ++ [node], other.nodeId = some id ∧
        (assigned.record node addr).place other = some found := by
  have hseen : ∀ id found, assigned.localByNodeId.lookup id = some found ↔
      ∃ other ∈ seen, other.nodeId = some id ∧
        (assigned.record node addr).place other = some found := by
    intro id found
    rw [h.ids]
    exact exists_congr fun other => and_congr_right fun hother => by rw [hkeep other hother]
  cases hnode : node.nodeId with
  | none =>
      have hmap : (assigned.record node addr).localByNodeId = assigned.localByNodeId := by
        simp [record, hnode]
      rw [hmap, hseen, exists_snoc]
      simp [hnode]
  | some own =>
      have hmap : (assigned.record node addr).localByNodeId =
          insertKey own addr assigned.localByNodeId := by
        simp [record, hnode]
      rw [hmap]
      refine lookup_iff_snoc hseen (fun k v => ?_) (fun v other hother hv => ?_) id found
      · simp [hnode, eq_comm]
      · have hlookup := (hseen own v).mpr ⟨other, hother, hv⟩
        exact hid v (by simp [placeById, hnode, hlookup])

/-- The IDs of the listeners, after one more node is recorded. -/
theorem Maps.record_owners (h : Maps assigned seen)
    (hkeep : ∀ other ∈ seen, (assigned.record node addr).place other = assigned.place other)
    (howner : ∀ id existing, node.nodeId = some id →
      assigned.nodeIdByLocal.lookup addr = some existing → existing = id)
    (found : SocketAddr) (id : Bytes) :
    (assigned.record node addr).nodeIdByLocal.lookup found = some id ↔
      ∃ other ∈ seen ++ [node], other.nodeId = some id ∧
        (assigned.record node addr).place other = some found := by
  have hseen : ∀ found id, assigned.nodeIdByLocal.lookup found = some id ↔
      ∃ other ∈ seen, other.nodeId = some id ∧
        (assigned.record node addr).place other = some found := by
    intro found id
    rw [h.owners]
    exact exists_congr fun other => and_congr_right fun hother => by rw [hkeep other hother]
  cases hnode : node.nodeId with
  | none =>
      have hmap : (assigned.record node addr).nodeIdByLocal = assigned.nodeIdByLocal := by
        simp [record, hnode]
      rw [hmap, hseen, exists_snoc]
      simp [hnode]
  | some own =>
      have hmap : (assigned.record node addr).nodeIdByLocal =
          insertKey addr own assigned.nodeIdByLocal := by
        simp [record, hnode]
      rw [hmap]
      refine lookup_iff_snoc hseen (fun k v => ?_) (fun v other hother hv => ?_) found id
      · simp [hnode, eq_comm, and_comm]
      · exact howner own v hnode ((hseen addr v).mpr ⟨other, hother, hv⟩)

/-- A node is recorded at the listener of the nodes it matches, which carries no other
ID and which it joins only through one of them. -/
theorem Maps.record (h : Maps assigned seen)
    (hplace : ∀ found, assigned.place node = some found → found = addr)
    (hid : ∀ found, assigned.placeById node = some found → found = addr)
    (howner : ∀ id existing, node.nodeId = some id →
      assigned.nodeIdByLocal.lookup addr = some existing → existing = id)
    (hlinked : ∀ other ∈ seen, assigned.place other = some addr →
      ∃ linked ∈ seen, assigned.place linked = some addr ∧ nodeKeys.Shares linked node) :
    Maps (assigned.record node addr) (seen ++ [node]) := by
  have hkeep : ∀ other ∈ seen,
      (assigned.record node addr).place other = assigned.place other :=
    fun other hother => place_record_of_seen hplace (h.found other hother)
  constructor
  · refine (h.placed.congr hkeep).snoc ?_ ?_ ?_
    · intro other hother hshares
      rw [place_record_self]
      rcases hshares with hkey | ⟨id, hoid, hnid⟩
      · exact place_record_of_key hkey
      · rcases Option.isSome_iff_exists.mp (h.found other hother) with ⟨found, hfound⟩
        have hlookup := (h.ids id found).mpr ⟨other, hother, hoid, hfound⟩
        have hnode : node.nodeId = some id := hnid
        have hsame := hid found (by simp [placeById, hnode, hlookup])
        rw [hkeep other hother, hfound, hsame]
    · intro other hother hsame
      rw [place_record_self, hkeep other hother] at hsame
      rcases hlinked other hother hsame with ⟨linked, hmem, hlinked, hshares⟩
      exact ⟨linked, hmem, by rw [place_record_self, hkeep linked hmem, hlinked], hshares⟩
    · intro other hother hsame i j hi hj
      rw [place_record_self, hkeep other hother] at hsame
      exact howner j i hj ((h.owners addr i).mpr ⟨other, hother, hi, hsame⟩)
  · intro other hother
    rcases List.mem_append.mp hother with hother | hother
    · rw [hkeep other hother]
      exact h.found other hother
    · cases List.mem_singleton.mp hother
      simp
  · intro other found hother
    by_cases hkey : other.upstream.connectAddr = node.upstream.connectAddr
    · exact ⟨node, List.mem_append_right _ List.mem_cons_self, hkey.symm⟩
    · rw [place_record_of_ne hkey] at hother
      rcases h.endpoints other found hother with ⟨known, hknown, hkey⟩
      exact ⟨known, List.mem_append_left _ hknown, hkey⟩
  · exact h.record_ids hkeep hid
  · exact h.record_owners hkeep howner

/-! ## The ports -/

/-- The maps agree, and the listeners are counted up in the order of the nodes. -/
structure Covers (listen : SocketAddr) (assigned : Assignment) (seen : List LocalNode) : Prop
    extends Maps assigned seen where
  addresses : (seen.map assigned.place).eraseDups =
    ((List.range assigned.targets.length).map (address listen)).map some
  listens : assigned.targets.map ProxyTarget.listen =
    (List.range assigned.targets.length).map fun offset => .tcp (address listen offset).endpoint
  bound : ∀ offset < assigned.targets.length, listen.port + offset < 2 ^ 16

theorem covers_nil : Covers listen {} [] where
  toMaps := maps_nil
  addresses := rfl
  listens := rfl
  bound := by simp

/-- The address of a node is one of those handed out. -/
theorem Covers.exists_offset (h : Covers listen assigned seen) {other : LocalNode}
    (hother : other ∈ seen) (hplace : assigned.place other = some addr) :
    ∃ offset < assigned.targets.length, addr = address listen offset := by
  have hmem : some addr ∈ (seen.map assigned.place).eraseDups := by
    rw [List.mem_eraseDups, ← hplace]
    exact List.mem_map_of_mem hother
  rw [h.addresses] at hmem
  rcases List.mem_map.mp hmem with ⟨found, hfound, heq⟩
  cases heq
  rcases List.mem_map.mp hfound with ⟨offset, hoffset, heq⟩
  exact ⟨offset, List.mem_range.mp hoffset, heq.symm⟩

theorem Covers.map_place (h : Covers listen assigned seen)
    (hplace : ∀ found, assigned.place node = some found → found = addr) :
    (seen ++ [node]).map (assigned.record node addr).place =
      seen.map assigned.place ++ [some addr] := by
  have hkeep : seen.map (assigned.record node addr).place = seen.map assigned.place :=
    List.map_congr_left fun other hother => place_record_of_seen hplace (h.found other hother)
  rw [List.map_append, hkeep, List.map_singleton, place_record_self]

/-- A node that joins a listener leaves the ports as they are. -/
theorem Covers.join (h : Covers listen assigned seen)
    (hfound : assigned.place node = some addr ∨ assigned.placeById node = some addr)
    (hplace : ∀ found, assigned.place node = some found → found = addr)
    (hid : ∀ found, assigned.placeById node = some found → found = addr)
    (howner : ∀ id existing, node.nodeId = some id →
      assigned.nodeIdByLocal.lookup addr = some existing → existing = id) :
    Covers listen (assigned.record node addr) (seen ++ [node]) := by
  have hlinked : ∃ linked ∈ seen, assigned.place linked = some addr ∧
      nodeKeys.Shares linked node := by
    rcases hfound with hfound | hfound
    · rcases h.endpoints node addr hfound with ⟨linked, hmem, hkey⟩
      exact ⟨linked, hmem, by rw [place, hkey]; exact hfound, .inl hkey⟩
    · rcases Option.bind_eq_some_iff.mp hfound with ⟨id, hnode, hlookup⟩
      rcases (h.ids id addr).mp hlookup with ⟨linked, hmem, hlid, hlplace⟩
      exact ⟨linked, hmem, hlplace, .inr ⟨id, hlid, hnode⟩⟩
  constructor
  · exact h.toMaps.record hplace hid howner fun _ _ _ => hlinked
  · rcases hlinked with ⟨linked, hmem, hlplace, -⟩
    have hold : some addr ∈ seen.map assigned.place :=
      hlplace ▸ List.mem_map_of_mem hmem
    rw [h.map_place hplace, eraseDups_snoc_of_mem hold, h.addresses, record_targets]
  · simpa using h.listens
  · simpa using h.bound

/-- A node that matches no other opens the next port. -/
theorem Covers.withTarget (h : Covers listen assigned seen) (hplace : assigned.place node = none)
    (hid : assigned.placeById node = none)
    (hbound : listen.port + assigned.targets.length < 2 ^ 16) :
    Covers listen (assigned.withTarget node (address listen assigned.targets.length))
      (seen ++ [node]) := by
  set addr := address listen assigned.targets.length with haddr
  have hfresh : ∀ other ∈ seen, assigned.place other ≠ some addr := by
    intro other hother hsame
    rcases h.exists_offset hother hsame with ⟨offset, hoffset, heq⟩
    have hports := congrArg SocketAddr.port heq
    simp only [haddr, address, Nat.add_left_cancel_iff] at hports
    omega
  have howner : ∀ id existing, node.nodeId = some id →
      assigned.nodeIdByLocal.lookup addr = some existing → existing = id := by
    intro id existing _ hexisting
    rcases (h.owners addr existing).mp hexisting with ⟨other, hother, -, hsame⟩
    exact absurd hsame (hfresh other hother)
  have hmaps : Maps (assigned.record node addr) (seen ++ [node]) :=
    h.toMaps.record (by simp [hplace]) (by simp [hid]) howner
      fun other hother hsame => absurd hsame (hfresh other hother)
  have hlength : (assigned.withTarget node addr).targets.length = assigned.targets.length + 1 := by
    simp [Assignment.withTarget]
  have hnew : some addr ∉ seen.map assigned.place := by
    intro hmem
    rcases List.mem_map.mp hmem with ⟨other, hother, hsame⟩
    exact hfresh other hother hsame
  constructor
  · exact ⟨hmaps.placed, hmaps.found, hmaps.endpoints, hmaps.ids, hmaps.owners⟩
  · have hmap : (seen ++ [node]).map (assigned.record node addr).place = _ :=
      h.map_place (by simp [hplace])
    change ((seen ++ [node]).map (assigned.record node addr).place).eraseDups = _
    rw [hmap, eraseDups_snoc_of_not_mem hnew, h.addresses, hlength, List.range_succ]
    simp [haddr]
  · rw [hlength, List.range_succ, List.map_append, ← h.listens]
    simp [Assignment.withTarget, haddr]
  · intro offset hoffset
    rw [hlength] at hoffset
    rcases Nat.lt_succ_iff_lt_or_eq.mp hoffset with hoffset | hoffset
    · exact h.bound offset hoffset
    · exact hoffset ▸ hbound

/-- One node keeps the maps consistent. -/
theorem Covers.assign (h : Covers listen assigned seen)
    (hassign : Assignment.assign listen assigned node = .ok after) :
    Covers listen after (seen ++ [node]) := by
  rcases assign_cases hassign with
    ⟨addr, rfl, hfound, hplace, hid, howner⟩ | ⟨hplace, hid, hbound, rfl⟩
  · exact h.join hfound hplace hid howner
  · exact h.withTarget hplace hid hbound

/-- So do any number of nodes. -/
theorem Covers.assignAll (h : Covers listen assigned seen) {nodes : List LocalNode}
    (hassign : nodes.foldlM (Assignment.assign listen) assigned = .ok after) :
    Covers listen after (seen ++ nodes) := by
  induction nodes generalizing assigned seen with
  | nil =>
      cases hassign
      rwa [List.append_nil]
  | cons node nodes ih =>
      rw [List.foldlM_cons, bind_eq_ok_iff] at hassign
      rcases hassign with ⟨next, hnext, hrest⟩
      rw [List.append_cons]
      exact ih (h.assign hnext) hrest

end Assignment

/-! ## The final pass -/

/-- A node at another listener. -/
def LocalNode.relocate (place : LocalNode → SocketAddr) (node : LocalNode) : LocalNode :=
  { node with localAddr := place node }

/-- A range with its nodes at other listeners. -/
def LocalSlotRange.relocate (place : LocalNode → SocketAddr) (slot : LocalSlotRange) : LocalSlotRange :=
  { slot with
    primary := slot.primary.relocate place
    replicas := slot.replicas.map (LocalNode.relocate place) }

/-- The nodes of all ranges, range after range. -/
def clusterNodes (slots : List LocalSlotRange) : List LocalNode :=
  slots.flatMap LocalSlotRange.nodes

theorem mem_clusterNodes {slots : List LocalSlotRange} {node : LocalNode} :
    node ∈ clusterNodes slots ↔ node ∈ assignmentOrder slots := by
  simp only [clusterNodes, assignmentOrder, List.mem_flatMap, List.mem_append, List.mem_map,
    LocalSlotRange.nodes, List.mem_cons]
  constructor
  · rintro ⟨slot, hslot, h | h⟩
    · exact .inl ⟨slot, hslot, h.symm⟩
    · exact .inr ⟨slot, hslot, h⟩
  · rintro (⟨slot, hslot, h⟩ | ⟨slot, hslot, h⟩)
    · exact ⟨slot, hslot, .inl h.symm⟩
    · exact ⟨slot, hslot, .inr h⟩

theorem assignmentOrder_relocate (place : LocalNode → SocketAddr) (slots : List LocalSlotRange) :
    assignmentOrder (slots.map (LocalSlotRange.relocate place)) =
      (assignmentOrder slots).map (LocalNode.relocate place) := by
  simp only [assignmentOrder, List.map_append, List.map_map, List.flatMap_map, List.map_flatMap]
  rfl

/-- A total partial function maps a list as its value does. -/
theorem mapM_eq_some {α β : Type} {f : α → Option β} {g : α → β} {items : List α}
    (h : ∀ a ∈ items, f a = some (g a)) : items.mapM f = some (items.map g) := by
  induction items with
  | nil => rfl
  | cons a items ih =>
      rw [List.mapM_cons, h a List.mem_cons_self,
        ih fun b hb => h b (List.mem_cons_of_mem _ hb)]
      rfl

/-- The listener of a node once all nodes are assigned. -/
def Assignment.located (assigned : Assignment) (node : LocalNode) : SocketAddr :=
  (assigned.place node).getD unmapped

/-- Every node has a listener, so the last pass finds one for each. -/
theorem mapM_placeRange {assigned : Assignment} {slots : List LocalSlotRange}
    (h : ∀ node ∈ assignmentOrder slots, (assigned.place node).isSome) :
    slots.mapM (placeRange assigned) =
      some (slots.map (LocalSlotRange.relocate assigned.located)) := by
  have hnode : ∀ node ∈ assignmentOrder slots,
      placeNode assigned node = some (node.relocate assigned.located) := by
    intro node hmem
    rcases Option.isSome_iff_exists.mp (h node hmem) with ⟨addr, haddr⟩
    simp [placeNode, LocalNode.relocate, Assignment.located, haddr]
  refine mapM_eq_some fun slot hslot => ?_
  have hprimary := hnode slot.primary
    (mem_clusterNodes.mp (List.mem_flatMap.mpr ⟨slot, hslot, List.mem_cons_self⟩))
  have hreplicas := mapM_eq_some fun node (hmem : node ∈ slot.replicas) => hnode node
    (mem_clusterNodes.mp (List.mem_flatMap.mpr ⟨slot, hslot, List.mem_cons_of_mem _ hmem⟩))
  rw [placeRange, hprimary, hreplicas]
  rfl

/-! ## The listeners of a mapped cluster -/

/-- What the listeners of a mapped cluster are. -/
structure Listeners (listen : SocketAddr) (slots : List LocalSlotRange)
    (targets : List ProxyTarget) (mapped : List LocalSlotRange) : Prop where
  /-- Nothing but the listeners is new. -/
  kept : ∃ place, mapped = slots.map (LocalSlotRange.relocate place)
  /-- Every node has the listener of a target. -/
  listed : ∀ node ∈ clusterNodes mapped,
    .tcp node.localAddr.endpoint ∈ targets.map ProxyTarget.listen
  /-- Nodes that share an address or an ID share the listener. -/
  shared : ∀ a ∈ clusterNodes mapped, ∀ b ∈ clusterNodes mapped,
    nodeKeys.Shares a b → a.localAddr = b.localAddr
  /-- Nodes share a listener only at the ends of a chain of such nodes. -/
  chained : ∀ a ∈ clusterNodes mapped, ∀ b ∈ clusterNodes mapped,
    a.localAddr = b.localAddr → nodeKeys.Linked (clusterNodes mapped) a b
  /-- No listener carries two IDs. -/
  single : ∀ a ∈ clusterNodes mapped, ∀ b ∈ clusterNodes mapped,
    a.localAddr = b.localAddr → ∀ i j, a.nodeId = some i → b.nodeId = some j → i = j
  /-- The targets listen on the next ports, one after another. -/
  ports : targets.map ProxyTarget.listen = (List.range targets.length).map fun offset =>
    .tcp { listen with port := listen.port + offset : SocketAddr }.endpoint
  bound : ∀ offset < targets.length, listen.port + offset ≤ 65535
  /-- There is one target for each listener, in the order in which these appear. -/
  appear : targets.map ProxyTarget.listen =
    ((assignmentOrder mapped).map LocalNode.localAddr).eraseDups.map fun addr => .tcp addr.endpoint
  /-- A listener that first appears at a node has a higher port than all before it. -/
  ordered : ∀ before node after, assignmentOrder mapped = before ++ node :: after →
    (∀ other ∈ before, other.localAddr ≠ node.localAddr) →
    ∀ other ∈ before, other.localAddr.port < node.localAddr.port
  /-- The listeners of the primaries come before those of replicas alone. -/
  primaries : ∀ primary ∈ mapped.map LocalSlotRange.primary, ∀ node ∈ clusterNodes mapped,
    (∀ other ∈ mapped.map LocalSlotRange.primary, other.localAddr ≠ node.localAddr) →
    primary.localAddr.port < node.localAddr.port

namespace Assignment

variable {assigned : Assignment} {listen : SocketAddr} {slots : List LocalSlotRange}

/-- The order of the nodes gives the order of the listeners. -/
theorem Covers.located_eraseDups {seen : List LocalNode} (h : Covers listen assigned seen) :
    (seen.map assigned.located).eraseDups =
      (List.range assigned.targets.length).map (address listen) := by
  have hplace : seen.map assigned.place = (seen.map assigned.located).map some := by
    rw [List.map_map]
    refine List.map_congr_left fun node hnode => ?_
    rcases Option.isSome_iff_exists.mp (h.found node hnode) with ⟨addr, haddr⟩
    simp [located, haddr]
  have hsome := h.addresses
  rw [hplace, eraseDups_map_some] at hsome
  exact List.map_injective_iff.mpr (Option.some_injective _) hsome

theorem address_pairwise (listen : SocketAddr) (n : Nat) :
    ((List.range n).map (address listen)).Pairwise fun a b => a.port < b.port := by
  rw [List.pairwise_map]
  refine List.pairwise_lt_range.imp fun hlt => ?_
  simpa [address] using hlt

/-- The listeners of the nodes are placed as the maps place them. -/
theorem Covers.placed_located {seen : List LocalNode} (h : Covers listen assigned seen) :
    Placed nodeKeys assigned.located seen := by
  have hsome : ∀ node ∈ seen, assigned.place node = some (assigned.located node) := by
    intro node hnode
    rcases Option.isSome_iff_exists.mp (h.found node hnode) with ⟨addr, haddr⟩
    simp [located, haddr]
  constructor
  · intro a ha b hb hshares
    have hsame := h.placed.shared a ha b hb hshares
    rw [hsome a ha, hsome b hb] at hsame
    exact Option.some.inj hsame
  · intro a ha b hb hsame
    exact h.placed.chained a ha b hb (by rw [hsome a ha, hsome b hb, hsame])
  · intro a ha b hb hsame
    exact h.placed.single a ha b hb (by rw [hsome a ha, hsome b hb, hsame])

/-- The maps that cover all nodes give every node its listener. -/
theorem Covers.listeners (h : Covers listen assigned (assignmentOrder slots)) :
    Listeners listen slots assigned.targets
      (slots.map (LocalSlotRange.relocate assigned.located)) := by
  set mapped := slots.map (LocalSlotRange.relocate assigned.located) with hmapped
  have horder : assignmentOrder mapped =
      (assignmentOrder slots).map (LocalNode.relocate assigned.located) :=
    assignmentOrder_relocate _ _
  have hlocals : (assignmentOrder mapped).map LocalNode.localAddr =
      (assignmentOrder slots).map assigned.located := by
    rw [horder, List.map_map]
    rfl
  have hsource : ∀ node ∈ clusterNodes mapped,
      ∃ source ∈ assignmentOrder slots, source.relocate assigned.located = node := by
    intro node hnode
    rw [mem_clusterNodes, horder] at hnode
    exact List.mem_map.mp hnode
  have happear : assigned.targets.map ProxyTarget.listen =
      ((assignmentOrder mapped).map LocalNode.localAddr).eraseDups.map
        fun addr => .tcp addr.endpoint := by
    rw [hlocals, h.located_eraseDups, h.listens, List.map_map]
    rfl
  have hsorted : ((assignmentOrder mapped).map LocalNode.localAddr).eraseDups.Pairwise
      fun a b => a.port < b.port := by
    rw [hlocals, h.located_eraseDups]
    exact address_pairwise listen _
  constructor
  · exact ⟨_, hmapped⟩
  · intro node hnode
    rw [happear]
    refine List.mem_map.mpr ⟨node.localAddr, List.mem_eraseDups.mpr ?_, rfl⟩
    exact List.mem_map_of_mem (mem_clusterNodes.mp hnode)
  · intro a ha b hb hshares
    rcases hsource a ha with ⟨c, hc, rfl⟩
    rcases hsource b hb with ⟨d, hd, rfl⟩
    exact h.placed_located.shared c hc d hd hshares
  · intro a ha b hb hsame
    rcases hsource a ha with ⟨c, hc, rfl⟩
    rcases hsource b hb with ⟨d, hd, rfl⟩
    have hlinked := (h.placed_located.chained c hc d hd hsame).map
      (f := LocalNode.relocate assigned.located) (fun _ => rfl) (fun _ => rfl)
    rw [← horder] at hlinked
    exact hlinked.mono fun node hnode => mem_clusterNodes.mpr hnode
  · intro a ha b hb hsame
    rcases hsource a ha with ⟨c, hc, rfl⟩
    rcases hsource b hb with ⟨d, hd, rfl⟩
    exact h.placed_located.single c hc d hd hsame
  · exact h.listens
  · intro offset hoffset
    have hlt := h.bound offset hoffset
    omega
  · exact happear
  · intro before node after hsplit hnew other hother
    have hnot : node.localAddr ∉ before.map LocalNode.localAddr := by
      intro hmem
      rcases List.mem_map.mp hmem with ⟨known, hknown, hsame⟩
      exact hnew known hknown hsame
    rw [hsplit, List.map_append, List.map_cons] at hsorted
    exact rel_of_pairwise_eraseDups hsorted (List.mem_map_of_mem hother) List.mem_cons_self hnot
  · intro primary hprimary node hnode hnew
    have hnot : node.localAddr ∉
        (mapped.map LocalSlotRange.primary).map LocalNode.localAddr := by
      intro hold
      rcases List.mem_map.mp hold with ⟨other, hother, hsame⟩
      exact hnew other hother hsame
    have hall : node.localAddr ∈ (assignmentOrder mapped).map LocalNode.localAddr :=
      List.mem_map_of_mem (mem_clusterNodes.mp hnode)
    rw [assignmentOrder, List.map_append] at hall hsorted
    have hlate := (List.mem_append.mp hall).resolve_left hnot
    exact rel_of_pairwise_eraseDups hsorted (List.mem_map_of_mem hprimary) hlate hnot

end Assignment

/-- The mapping reports an error or gives every node a listener. -/
theorem mapClusterSlots_cases (slots : List LocalSlotRange) (listen : SocketAddr) :
    (∃ error, mapClusterSlots slots listen = some (.error error)) ∨
      ∃ targets mapped, mapClusterSlots slots listen = some (.ok (.cluster targets mapped)) ∧
        Listeners listen slots targets mapped := by
  unfold mapClusterSlots
  by_cases hport : listen.port = 0
  · rw [if_pos hport]
    exact .inl ⟨_, rfl⟩
  · rw [if_neg hport]
    cases hassign : (assignmentOrder slots).foldlM (Assignment.assign listen) {} with
    | error error => exact .inl ⟨error, rfl⟩
    | ok assigned =>
        have hcovers := Assignment.covers_nil.assignAll hassign
        rw [List.nil_append] at hcovers
        simp only [mapM_placeRange hcovers.found]
        exact .inr ⟨_, _, rfl, hcovers.listeners⟩

theorem listeners_of_mapClusterSlots {slots mapped : List LocalSlotRange} {listen : SocketAddr}
    {targets : List ProxyTarget}
    (h : mapClusterSlots slots listen = some (.ok (.cluster targets mapped))) :
    Listeners listen slots targets mapped := by
  rcases mapClusterSlots_cases slots listen with ⟨error, herror⟩ | ⟨found, ranges, hok, hfound⟩
  · rw [h] at herror
    cases herror
  · rw [h] at hok
    cases hok
    exact hfound

/-- The mapping never fails to find a listener, and gives every node of a mapped cluster
one: nodes share it exactly if a chain of shared addresses and IDs links them, and the
ports follow the order in which the nodes appear, primaries first. -/
theorem mapClusterSlots_assigned (slots : List LocalSlotRange) (listen : SocketAddr) :
    (mapClusterSlots slots listen).isSome ∧
      ∀ topology, mapClusterSlots slots listen = some (.ok topology) →
        ∃ targets mapped, topology = .cluster targets mapped ∧
          Listeners listen slots targets mapped := by
  rcases mapClusterSlots_cases slots listen with ⟨error, herror⟩ | ⟨targets, mapped, hok, h⟩
  · rw [herror]
    exact ⟨rfl, fun topology htopology => by cases htopology⟩
  · rw [hok]
    refine ⟨rfl, fun topology htopology => ?_⟩
    cases htopology
    exact ⟨targets, mapped, rfl, h⟩

/-- A node with the listener at a port of the loopback address, and an ID of one byte. -/
def loopbackNode (host : String) (port : UInt16) (id : Option UInt8) (listener : Nat) :
    LocalNode where
  upstream := { host, port := port.toNat }
  localAddr := { unmapped with port := listener }
  nodeId := id.map fun byte => [byte]
  port_lt := port.toNat_lt
  nodeId_ne := by cases id <;> simp

/-- A primary, and a replica that is listed under two addresses with one ID. -/
def aliasedSlots : List LocalSlotRange :=
  [{ start := 0
     stop := 16383
     primary := loopbackNode "primary-a" 6379 (some 112) 0
     replicas := [
       loopbackNode "replica-a" 6379 (some 114) 0,
       loopbackNode "replica-a-alias" 6379 (some 114) 0] }]

/-- The listeners of three entries for two nodes. -/
theorem mapClusterSlots_assigned_aliased :
    ∃ targets mapped, Listeners { unmapped with port := 6380 } aliasedSlots targets mapped := by
  rcases (mapClusterSlots_assigned aliasedSlots { unmapped with port := 6380 }).2 _ rfl with
    ⟨targets, mapped, -, h⟩
  exact ⟨targets, mapped, h⟩

end EvilResp
