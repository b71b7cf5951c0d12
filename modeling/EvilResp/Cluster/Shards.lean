import EvilResp.Cluster.Discovery
import EvilResp.Cluster.Rewrite

/-!
# Rewritten shards

The reply to CLUSTER SHARDS comes in two shapes: maps, or flat arrays of keys and values.
Shards and their nodes are the same objects in both, and so is what the rewrite keeps: the
nodes with a listener, under the address of the listener, and the shards with such nodes.

Main results:

- Theorem {lit}`ShardNode.localize_eq_some`: what becomes of a node.
- Theorem {lit}`Shard.localize_eq_some`: what becomes of a shard.
- Theorem {lit}`rewriteClusterShards_exact`: both shapes are rewritten alike, and exactly
  the nodes with a listener are kept.
-/

namespace EvilResp

open Library
open EvilResp.Resp

/-! ## What is kept of a list -/

/-- Items of one list that became the items of another, in order.  The others became
nothing. -/
inductive Remains {α β : Type} (became : α → β → Prop) : List α → List β → Prop where
  | nil : Remains became [] []
  | keep {a : α} {b : β} {as : List α} {bs : List β} (h : became a b)
      (hs : Remains became as bs) : Remains became (a :: as) (b :: bs)
  | drop {a : α} {as : List α} {bs : List β} (h : ∀ b, ¬ became a b)
      (hs : Remains became as bs) : Remains became (a :: as) bs

theorem remains_filterMap {α β : Type} {became : α → β → Prop} {f : α → Option β}
    (h : ∀ a b, f a = some b ↔ became a b) (as : List α) : Remains became as (as.filterMap f) := by
  induction as with
  | nil => exact .nil
  | cons a as ih =>
      cases ha : f a with
      | none =>
          rw [List.filterMap_cons_none ha]
          refine .drop (fun b hb => ?_) ih
          rw [(h a b).mpr hb] at ha
          cases ha
      | some b =>
          rw [List.filterMap_cons_some ha]
          exact .keep ((h a b).mp ha) ih

/-- A list keeps no more than that. -/
theorem Remains.eq_filterMap {α β : Type} {became : α → β → Prop} {f : α → Option β} {as : List α}
    {bs : List β} (h : Remains became as bs) (hf : ∀ a b, f a = some b ↔ became a b) :
    bs = as.filterMap f := by
  induction h with
  | nil => rfl
  | @keep a b as bs hab _ ih => rw [List.filterMap_cons_some ((hf a b).mpr hab), ih]
  | @drop a as bs hnone _ ih =>
      have ha : f a = none := by
        rw [Option.eq_none_iff_forall_ne_some]
        intro b hb
        exact hnone b ((hf a b).mp hb)
      rw [List.filterMap_cons_none ha, ih]

/-! ## Objects -/

/-- An object with strings as keys is read back from both shapes. -/
theorem MapEntries.parse_intoFrame {entries : MapEntries}
    (h : ∀ pair ∈ entries.pairs, (stringOf pair.1).isSome = true) :
    MapEntries.parse entries.intoFrame = some entries := by
  rcases entries with ⟨flat, pairs⟩
  cases flat with
  | false => rfl
  | true =>
      have hall : pairs.all (fun pair => (stringOf pair.1).isSome) = true :=
        List.all_eq_true.mpr h
      have hchunks := asChunks2_flatten (List.length_nil.trans_le (Nat.zero_le 1)) pairs
      rw [List.append_nil] at hchunks
      simp only [intoFrame, if_true, parse, hchunks, hall, and_self]

/-- A node of a shard, in one of the two shapes. -/
structure ShardNode where
  flat : Bool
  pairs : List (Frame × Frame)
  strings : ∀ pair ∈ pairs, (stringOf pair.1).isSome = true

/-- A shard: its nodes under their key, and other entries before and after them. -/
structure Shard where
  flat : Bool
  before : List (Frame × Frame)
  key : Frame
  nodes : List ShardNode
  after : List (Frame × Frame)
  key_nodes : keyIs key "nodes" = true
  others : ∀ pair ∈ before ++ after,
    (stringOf pair.1).isSome = true ∧ keyIs pair.1 "nodes" = false

namespace ShardNode

/-- The entries of a node. -/
def entries (node : ShardNode) : MapEntries :=
  { flat := node.flat, pairs := node.pairs }

/-- A node as a frame. -/
def frame (node : ShardNode) : Frame :=
  node.entries.intoFrame

/-- A node in one of the two forms of maps. -/
def shaped (flat : Bool) (node : ShardNode) : ShardNode :=
  { node with flat }

theorem parse_frame (node : ShardNode) : MapEntries.parse node.frame = some node.entries :=
  MapEntries.parse_intoFrame node.strings

end ShardNode

namespace Shard

/-- The entries of a shard. -/
def pairs (shard : Shard) : List (Frame × Frame) :=
  shard.before ++ (shard.key, .array (some (shard.nodes.map ShardNode.frame))) :: shard.after

/-- A shard as a frame. -/
def frame (shard : Shard) : Frame :=
  { flat := shard.flat, pairs := shard.pairs : MapEntries }.intoFrame

/-- A shard in one of the two forms of maps. -/
def shaped (flat : Bool) (shard : Shard) : Shard :=
  { shard with flat, nodes := shard.nodes.map (ShardNode.shaped flat) }

theorem isSome_key (shard : Shard) : (stringOf shard.key).isSome = true := by
  have hkey := shard.key_nodes
  rw [keyIs, Option.any_eq_true] at hkey
  rcases hkey with ⟨text, htext, -⟩
  rw [htext]
  rfl

theorem parse_frame (shard : Shard) :
    MapEntries.parse shard.frame = some { flat := shard.flat, pairs := shard.pairs } := by
  refine MapEntries.parse_intoFrame fun pair hpair => ?_
  rcases List.mem_append.mp hpair with hbefore | hpair
  · exact (shard.others pair (List.mem_append_left _ hbefore)).1
  · rcases List.mem_cons.mp hpair with rfl | hafter
    · exact shard.isSome_key
    · exact (shard.others pair (List.mem_append_right _ hafter)).1

end Shard

/-- A reply with shards. -/
def shardsReply (shards : List Shard) : Frame :=
  .array (some (shards.map Shard.frame))

/-! ## The listener of a node -/

section

variable (lib : Externals) (map : ClusterRedirectionMap)

namespace ShardNode

/-- The host of a node: the first of three entries with a text. -/
def host (node : ShardNode) : String :=
  (node.entries.string "ip").getD
    ((node.entries.string "endpoint").getD ((node.entries.string "hostname").getD ""))

/-- The address of a node at a port.  Without a host the port stands alone. -/
def address (node : ShardNode) (port : Nat) : String :=
  if node.host = "" ∨ node.host = "?" then ":" ++ toString port
  else ({ host := node.host, port } : TcpEndpoint).connectAddr

/-- A node has a listener: its port is a port, and the map knows its ID, or else its
address. -/
def Listens (node : ShardNode) (listener : TcpEndpoint) : Prop :=
  ∃ (port : Nat) (text : String), port < 2 ^ 16 ∧ node.entries.integer "port" = some (port : Int) ∧
    ((∃ id, node.entries.string "id" = some id ∧ map.localByNodeId.lookup (asBytes id) = some text) ∨
      (∀ id, node.entries.string "id" = some id → map.localByNodeId.lookup (asBytes id) = none) ∧
        map.rewriteServer lib (node.address port) = some text) ∧
    TcpEndpoint.parse lib text = .ok listener

end ShardNode

/-- An entry of a node at its listener. -/
structure Moved (listener : TcpEndpoint) (pair pair' : Frame × Frame) : Prop where
  key : pair'.1 = pair.1
  host : keyIs pair.1 "ip" = true ∨ keyIs pair.1 "endpoint" = true ∨
    keyIs pair.1 "hostname" = true → pair'.2 = .bulkString (some (asBytes listener.host))
  port : keyIs pair.1 "port" = true → pair'.2 = .integer (Int64.ofNat listener.port)
  other : keyIs pair.1 "ip" = false → keyIs pair.1 "endpoint" = false →
    keyIs pair.1 "hostname" = false → keyIs pair.1 "port" = false → pair'.2 = pair.2

/-- A node moved to its listener. -/
def ShardNode.Localized (node node' : ShardNode) : Prop :=
  ∃ listener, node.Listens lib map listener ∧ node'.flat = node.flat ∧
    List.Forall₂ (Moved listener) node.pairs node'.pairs

/-- A shard whose nodes moved to their listeners.  Some are left, and nothing else
changed. -/
structure Shard.Localized (shard shard' : Shard) : Prop where
  flat : shard'.flat = shard.flat
  before : shard'.before = shard.before
  key : shard'.key = shard.key
  after : shard'.after = shard.after
  nodes : Remains (ShardNode.Localized lib map) shard.nodes shard'.nodes
  nonempty : shard'.nodes ≠ []

end

variable {lib : Externals} {map : ClusterRedirectionMap}

/-! ## Nodes -/

theorem rewriteNode_eq_some {nodeId : Option Bytes} {server text : String} :
    map.rewriteNode lib nodeId server = some text ↔
      (∃ id, nodeId = some id ∧ map.localByNodeId.lookup id = some text) ∨
        (∀ id, nodeId = some id → map.localByNodeId.lookup id = none) ∧
          map.rewriteServer lib server = some text := by
  unfold ClusterRedirectionMap.rewriteNode
  cases nodeId with
  | none => simp
  | some id =>
      rw [Option.bind_some]
      simp only [Option.some.injEq, exists_eq_left', forall_eq']
      cases map.localByNodeId.lookup id with
      | none => simp
      | some found => simp

/-- A key has one name. -/
theorem keyIs_unique {key : Frame} {name name' : String} (h : keyIs key name = true)
    (h' : keyIs key name' = true) : toAsciiLowercase name = toAsciiLowercase name' := by
  rw [keyIs, Option.any_eq_true] at h h'
  rcases h with ⟨text, htext, hname⟩
  rcases h' with ⟨text', htext', hname'⟩
  obtain rfl : text = text' := Option.some.inj (htext.symm.trans htext')
  rw [← eqIgnoreAsciiCase_iff.mp hname, ← eqIgnoreAsciiCase_iff.mp hname']

theorem moved_rewriteNodeEntry (listener : TcpEndpoint) (pair : Frame × Frame) :
    Moved listener pair (rewriteNodeEntry listener pair) := by
  unfold rewriteNodeEntry
  by_cases hhost : keyIs pair.1 "ip" = true ∨ keyIs pair.1 "endpoint" = true ∨
      keyIs pair.1 "hostname" = true
  · rw [if_pos hhost]
    constructor
    · rfl
    · intro _
      rfl
    · intro hport
      rcases hhost with hname | hname | hname
      · exact absurd (keyIs_unique hname hport) (by decide)
      · exact absurd (keyIs_unique hname hport) (by decide)
      · exact absurd (keyIs_unique hname hport) (by decide)
    · intro hip hendpoint hhostname _
      rw [hip, hendpoint, hhostname] at hhost
      simp at hhost
  · rw [if_neg hhost]
    by_cases hport : keyIs pair.1 "port" = true
    · rw [if_pos hport]
      constructor
      · rfl
      · intro hname
        exact absurd hname hhost
      · intro _
        rfl
      · intro _ _ _ hother
        rw [hport] at hother
        cases hother
    · rw [if_neg hport]
      constructor
      · rfl
      · intro hname
        exact absurd hname hhost
      · intro hname
        exact absurd hname hport
      · intro _ _ _ _
        rfl

theorem Moved.eq {listener : TcpEndpoint} {pair pair' : Frame × Frame}
    (h : Moved listener pair pair') : pair' = rewriteNodeEntry listener pair := by
  have hentry := moved_rewriteNodeEntry listener pair
  apply Prod.ext
  · rw [h.key, hentry.key]
  · by_cases hhost : keyIs pair.1 "ip" = true ∨ keyIs pair.1 "endpoint" = true ∨
        keyIs pair.1 "hostname" = true
    · rw [h.host hhost, hentry.host hhost]
    · by_cases hport : keyIs pair.1 "port" = true
      · rw [h.port hport, hentry.port hport]
      · simp only [not_or, Bool.not_eq_true] at hhost hport
        rcases hhost with ⟨hip, hendpoint, hhostname⟩
        rw [h.other hip hendpoint hhostname hport, hentry.other hip hendpoint hhostname hport]

theorem forall₂_moved_iff {listener : TcpEndpoint} {pairs pairs' : List (Frame × Frame)} :
    List.Forall₂ (Moved listener) pairs pairs' ↔
      pairs' = pairs.map (rewriteNodeEntry listener) := by
  constructor
  · intro h
    induction h with
    | nil => rfl
    | cons hpair _ ih => rw [List.map_cons, hpair.eq, ih]
  · rintro rfl
    rw [List.forall₂_map_right_iff]
    exact List.forall₂_same.mpr fun pair _ => moved_rewriteNodeEntry listener pair

theorem localEndpoint_eq_some {nodeId : Option String} {node : ShardNode} {port : Int}
    {listener : TcpEndpoint} :
    localEndpoint lib map nodeId node.host port = some listener ↔
      ∃ (n : Nat) (text : String), n < 2 ^ 16 ∧ port = (n : Int) ∧
        map.rewriteNode lib (nodeId.map asBytes) (node.address n) = some text ∧
        TcpEndpoint.parse lib text = .ok listener := by
  have haddress : ∀ n : Nat, (if node.host.isEmpty ∨ node.host = "?" then s!":{(n : Int)}"
      else ({ host := node.host, port := (n : Int).toNat } : TcpEndpoint).connectAddr) =
      node.address n := by
    intro n
    have hrepr : (n : Int).repr = n.repr := rfl
    simp [ShardNode.address, toString, ToString.toString, hrepr]
  unfold localEndpoint
  by_cases hport : port < 0 ∨ 65535 < port
  · rw [if_pos hport]
    refine iff_of_false nofun ?_
    rintro ⟨n, _, hn, rfl, -⟩
    omega
  · rw [if_neg hport]
    obtain ⟨n, rfl⟩ := Int.eq_ofNat_of_zero_le (by omega : 0 ≤ port)
    dsimp only
    rw [haddress]
    simp only [Option.bind_eq_bind, Option.bind_eq_some_iff, toOption_eq_some_iff]
    constructor
    · rintro ⟨text, htext, hparse⟩
      exact ⟨n, text, by omega, rfl, htext, hparse⟩
    · rintro ⟨m, text, -, hm, htext, hparse⟩
      obtain rfl : n = m := by omega
      exact ⟨text, htext, hparse⟩

namespace ShardNode

theorem stringOf_rewriteNodeEntry (listener : TcpEndpoint) (pair : Frame × Frame) :
    (rewriteNodeEntry listener pair).1 = pair.1 :=
  (moved_rewriteNodeEntry listener pair).key

/-- A node at a listener. -/
def moved (node : ShardNode) (listener : TcpEndpoint) : ShardNode where
  flat := node.flat
  pairs := node.pairs.map (rewriteNodeEntry listener)
  strings := by
    intro pair hpair
    rcases List.mem_map.mp hpair with ⟨original, hmem, rfl⟩
    rw [stringOf_rewriteNodeEntry]
    exact node.strings original hmem

variable (lib : Externals) (map : ClusterRedirectionMap)

/-- A node at its listener, if it has one. -/
def localize (node : ShardNode) : Option ShardNode :=
  (node.entries.integer "port").bind fun port =>
    (localEndpoint lib map (node.entries.string "id") node.host port).map node.moved

theorem rewriteShardNode_frame (node : ShardNode) :
    rewriteShardNode lib map node.frame = (node.localize lib map).map frame := by
  rw [rewriteShardNode, node.parse_frame, localize]
  simp only [Option.bind_eq_bind, Option.bind_some, Option.map_bind]
  congr 1
  funext port
  simp only [Function.comp_apply, host]
  cases localEndpoint lib map (node.entries.string "id") _ port with
  | none => rfl
  | some listener => rfl

/-- What becomes of a node. -/
theorem localize_eq_some (node node' : ShardNode) :
    node.localize lib map = some node' ↔ node.Localized lib map node' := by
  have hmoved : ∀ listener, node.moved listener = node' ↔
      node'.flat = node.flat ∧ List.Forall₂ (Moved listener) node.pairs node'.pairs := by
    intro listener
    rw [forall₂_moved_iff]
    constructor
    · rintro rfl
      exact ⟨rfl, rfl⟩
    · rintro ⟨hflat, hpairs⟩
      rcases node' with ⟨flat, pairs, strings⟩
      simp only at hflat hpairs
      subst hflat
      subst hpairs
      rfl
  simp only [localize, Option.bind_eq_some_iff, Option.map_eq_some_iff, localEndpoint_eq_some,
    rewriteNode_eq_some, Option.map_eq_some_iff, hmoved]
  constructor
  · rintro ⟨port, hport, listener, ⟨n, text, hn, rfl, hknown, hparse⟩, hflat, hpairs⟩
    refine ⟨listener, ⟨n, text, hn, hport, ?_, hparse⟩, hflat, hpairs⟩
    rcases hknown with ⟨id, ⟨name, hname, rfl⟩, hid⟩ | ⟨hunknown, haddress⟩
    · exact .inl ⟨name, hname, hid⟩
    · exact .inr ⟨fun name hname => hunknown _ ⟨name, hname, rfl⟩, haddress⟩
  · rintro ⟨listener, ⟨n, text, hn, hport, hknown, hparse⟩, hflat, hpairs⟩
    refine ⟨n, hport, listener, ⟨n, text, hn, rfl, ?_, hparse⟩, hflat, hpairs⟩
    rcases hknown with ⟨name, hname, hid⟩ | ⟨hunknown, haddress⟩
    · exact .inl ⟨_, ⟨name, hname, rfl⟩, hid⟩
    · refine .inr ⟨?_, haddress⟩
      rintro _ ⟨name, hname, rfl⟩
      exact hunknown name hname

end ShardNode

/-! ## Shards -/

/-- Entries under other keys stay. -/
theorem rewriteShardEntries_cons {pair : Frame × Frame} (h : keyIs pair.1 "nodes" = false)
    {pairs : List (Frame × Frame)} {hasNodes : Bool} {result : List (Frame × Frame) × Bool}
    (hrest : rewriteShardEntries lib map pairs hasNodes = result) :
    rewriteShardEntries lib map (pair :: pairs) hasNodes = (pair :: result.1, result.2) := by
  unfold rewriteShardEntries
  split
  · rename_i heq
    cases heq
  · rename_i heq
    cases heq
    rw [if_neg (by simp [h]), hrest]
  · rename_i heq
    cases heq
    rw [hrest]

theorem rewriteShardEntries_others {pairs : List (Frame × Frame)}
    (h : ∀ pair ∈ pairs, keyIs pair.1 "nodes" = false) (rest : List (Frame × Frame))
    (hasNodes : Bool) :
    rewriteShardEntries lib map (pairs ++ rest) hasNodes =
      (pairs ++ (rewriteShardEntries lib map rest hasNodes).1,
        (rewriteShardEntries lib map rest hasNodes).2) := by
  induction pairs with
  | nil => rfl
  | cons pair pairs ih =>
      rcases List.forall_mem_cons.mp h with ⟨hpair, hpairs⟩
      exact rewriteShardEntries_cons hpair (ih hpairs)

namespace Shard

variable (lib : Externals) (map : ClusterRedirectionMap)

/-- A shard with the nodes that have a listener, if any has. -/
def localize (shard : Shard) : Option Shard :=
  if shard.nodes.filterMap (ShardNode.localize lib map) = [] then none
  else some { shard with nodes := shard.nodes.filterMap (ShardNode.localize lib map) }

/-- What becomes of the frame of a shard. -/
theorem rewriteShard_frame (shard : Shard) :
    rewriteShard lib map shard.frame = (shard.localize lib map).map frame := by
  have hbefore : ∀ pair ∈ shard.before, keyIs pair.1 "nodes" = false := fun pair hpair =>
    (shard.others pair (List.mem_append_left _ hpair)).2
  have hafter : ∀ pair ∈ shard.after, keyIs pair.1 "nodes" = false := fun pair hpair =>
    (shard.others pair (List.mem_append_right _ hpair)).2
  have hkept : (shard.nodes.map ShardNode.frame).filterMap (rewriteShardNode lib map) =
      (shard.nodes.filterMap (ShardNode.localize lib map)).map ShardNode.frame := by
    rw [List.filterMap_map, List.map_filterMap]
    exact List.filterMap_congr fun node _ => node.rewriteShardNode_frame lib map
  have hrest : ∀ hasNodes, rewriteShardEntries lib map shard.after hasNodes =
      (shard.after, hasNodes) := by
    intro hasNodes
    have hothers : rewriteShardEntries lib map (shard.after ++ []) hasNodes = _ :=
      rewriteShardEntries_others hafter [] hasNodes
    simpa [rewriteShardEntries] using hothers
  have hentries : rewriteShardEntries lib map shard.pairs false =
      (shard.before ++ (shard.key, .array (some
        ((shard.nodes.filterMap (ShardNode.localize lib map)).map ShardNode.frame))) :: shard.after,
        !((shard.nodes.filterMap (ShardNode.localize lib map)).map ShardNode.frame).isEmpty) := by
    rw [pairs, rewriteShardEntries_others hbefore, rewriteShardEntries, if_pos shard.key_nodes,
      hkept]
    dsimp only
    rw [hrest]
  rw [rewriteShard, shard.parse_frame]
  simp only [Option.bind_eq_bind, Option.bind_some]
  rw [hentries, localize]
  by_cases hnone : shard.nodes.filterMap (ShardNode.localize lib map) = []
  · rw [if_pos hnone, hnone]
    rfl
  · rw [if_neg hnone, if_pos (by simpa using hnone)]
    rfl

/-- What becomes of a shard. -/
theorem localize_eq_some (shard shard' : Shard) :
    shard.localize lib map = some shard' ↔ shard.Localized lib map shard' := by
  have hkept := remains_filterMap (ShardNode.localize_eq_some lib map) shard.nodes
  unfold localize
  constructor
  · intro h
    split_ifs at h with hnone
    cases h
    constructor
    · rfl
    · rfl
    · rfl
    · rfl
    · exact hkept
    · exact hnone
  · intro h
    have hnodes : shard'.nodes = shard.nodes.filterMap (ShardNode.localize lib map) :=
      h.nodes.eq_filterMap (ShardNode.localize_eq_some lib map)
    rw [if_neg (hnodes ▸ h.nonempty)]
    rcases shard' with ⟨flat, before, key, nodes, after, _, _⟩
    obtain rfl := h.flat
    obtain rfl := h.before
    obtain rfl := h.key
    obtain rfl := h.after
    obtain rfl := hnodes
    rfl

/-- The shape of a shard plays no part. -/
theorem localize_shaped (flat : Bool) (shard : Shard) :
    (shard.shaped flat).localize lib map = (shard.localize lib map).map (shaped flat) := by
  have hnode : ∀ node : ShardNode, (node.shaped flat).localize lib map =
      (node.localize lib map).map (ShardNode.shaped flat) := by
    intro node
    have hport : (node.shaped flat).entries.integer "port" = node.entries.integer "port" := rfl
    have hid : (node.shaped flat).entries.string "id" = node.entries.string "id" := rfl
    have hhost : (node.shaped flat).host = node.host := rfl
    rw [ShardNode.localize, ShardNode.localize, hport, hid, hhost, Option.map_bind]
    congr 1
    funext port
    rw [Function.comp_apply, Option.map_map]
    rfl
  have hnodes : (shard.shaped flat).nodes.filterMap (ShardNode.localize lib map) =
      (shard.nodes.filterMap (ShardNode.localize lib map)).map (ShardNode.shaped flat) := by
    rw [shaped, List.filterMap_map, List.map_filterMap]
    exact List.filterMap_congr fun node _ => hnode node
  rw [localize, localize, hnodes]
  by_cases hnone : shard.nodes.filterMap (ShardNode.localize lib map) = []
  · rw [if_pos hnone, hnone]
    rfl
  · rw [if_neg hnone, if_neg (by simpa using hnone)]
    rfl

end Shard

/-! ## Replies -/

/-- The flat form of a node. -/
def flattenNode : Frame → Frame
  | .map pairs => .array (some (pairs.flatMap fun pair => [pair.1, pair.2]))
  | node => node

/-- The flat form of the nodes among the entries of a shard. -/
def flattenEntry (pair : Frame × Frame) : Frame × Frame :=
  if keyIs pair.1 "nodes" then
    match pair.2 with
    | .array (some nodes) => (pair.1, .array (some (nodes.map flattenNode)))
    | _ => pair
  else pair

/-- The nodes of a shard as a flat list. -/
def flattenShard : Frame → Frame
  | .map pairs =>
      .array (some ((pairs.map flattenEntry).flatMap fun pair => [pair.1, pair.2]))
  | shard => shard

/-- The RESP2 form of a RESP3 reply. -/
def flattenShards : Frame → Frame
  | .array (some shards) => .array (some (shards.map flattenShard))
  | reply => reply

theorem flattenEntry_of_not_nodes {pairs : List (Frame × Frame)}
    (h : ∀ pair ∈ pairs, keyIs pair.1 "nodes" = false) : pairs.map flattenEntry = pairs := by
  refine (List.map_congr_left fun pair hpair => ?_).trans (List.map_id pairs)
  rw [flattenEntry, if_neg (by simp [h pair hpair])]
  rfl

theorem flattenShard_frame (shard : Shard) :
    flattenShard (shard.shaped false).frame = (shard.shaped true).frame := by
  have hbefore : shard.before.map flattenEntry = shard.before :=
    flattenEntry_of_not_nodes fun pair hpair =>
      (shard.others pair (List.mem_append_left _ hpair)).2
  have hafter : shard.after.map flattenEntry = shard.after :=
    flattenEntry_of_not_nodes fun pair hpair =>
      (shard.others pair (List.mem_append_right _ hpair)).2
  have hnodes : ((shard.shaped false).nodes.map ShardNode.frame).map flattenNode =
      (shard.shaped true).nodes.map ShardNode.frame := by
    simp only [Shard.shaped, List.map_map]
    exact List.map_congr_left fun node _ => rfl
  have hpairs : (shard.shaped false).pairs.map flattenEntry = (shard.shaped true).pairs := by
    have hkey : flattenEntry ((shard.shaped false).key, .array (some
        ((shard.shaped false).nodes.map ShardNode.frame))) = ((shard.shaped true).key,
          .array (some ((shard.shaped true).nodes.map ShardNode.frame))) := by
      rw [flattenEntry, if_pos (shard.shaped false).key_nodes]
      dsimp only
      rw [hnodes]
      rfl
    have hkept : ∀ flat, (shard.shaped flat).before = shard.before ∧
        (shard.shaped flat).after = shard.after := fun flat => ⟨rfl, rfl⟩
    rw [Shard.pairs, List.map_append, List.map_cons, hkey, (hkept false).1, (hkept false).2,
      hbefore, hafter]
    rfl
  change Frame.array (some (((shard.shaped false).pairs.map flattenEntry).flatMap _)) = _
  rw [hpairs]
  rfl

theorem flattenShards_reply (shards : List Shard) :
    flattenShards (shardsReply (shards.map (Shard.shaped false))) =
      shardsReply (shards.map (Shard.shaped true)) := by
  simp only [shardsReply, flattenShards, List.map_map]
  congr 2
  exact List.map_congr_left fun shard _ => flattenShard_frame shard

theorem rewriteClusterShards_reply (lib : Externals) (map : ClusterRedirectionMap)
    (shards : List Shard) : rewriteClusterShards lib map (shardsReply shards) =
      shardsReply (shards.filterMap (Shard.localize lib map)) := by
  rw [shardsReply, rewriteClusterShards, shardsReply, List.filterMap_map, List.map_filterMap]
  congr 2
  exact List.filterMap_congr fun shard _ => shard.rewriteShard_frame lib map

theorem rewriteClusterShards_shaped (lib : Externals) (map : ClusterRedirectionMap) (flat : Bool)
    (shards : List Shard) :
    rewriteClusterShards lib map (shardsReply (shards.map (Shard.shaped flat))) =
      shardsReply ((shards.filterMap (Shard.localize lib map)).map (Shard.shaped flat)) := by
  rw [rewriteClusterShards_reply, List.filterMap_map, List.map_filterMap]
  congr 1
  exact List.filterMap_congr fun shard _ => shard.localize_shaped lib map flat

/-! ## Maps of discovered clusters -/

/-- The listeners of a discovered cluster are endpoints. -/
theorem endpoint_of_fromSlotRanges {slots : List LocalSlotRange}
    (hports : ∀ slot ∈ slots, ∀ node ∈ slot.nodes, node.localAddr.port < 2 ^ 16)
    {nodeId : Option Bytes} {server text : String}
    (h : (ClusterRedirectionMap.fromSlotRanges slots).rewriteNode lib nodeId server = some text) :
    ∃ listener, TcpEndpoint.parse lib text = .ok listener := by
  have hnode : ∀ node ∈ slots.flatMap LocalSlotRange.nodes,
      ∃ listener, TcpEndpoint.parse lib node.localAddr.text = .ok listener := by
    intro node hnode
    rcases List.mem_flatMap.mp hnode with ⟨slot, hslot, hmem⟩
    exact ⟨_, SocketAddr.parse_text lib (hports slot hslot node hmem)⟩
  have hmapping : ∀ mapping ∈ (slots.flatMap LocalSlotRange.nodes).map
      (fun node => (node.upstream, node.localAddr.text)),
      ∃ listener, TcpEndpoint.parse lib mapping.2 = .ok listener := by
    intro mapping hmapping
    rcases List.mem_map.mp hmapping with ⟨node, hmem, rfl⟩
    exact hnode node hmem
  have hport : ∀ {port : Nat}, (ClusterRedirectionMap.fromSlotRanges
      slots).localByUniqueUpstreamPort.lookup port = some text →
        ∃ listener, TcpEndpoint.parse lib text = .ok listener := by
    intro port hlookup
    rcases ClusterRedirectionMap.fromMappings_port hlookup with ⟨⟨mapping, hmem, hkey⟩, hall⟩
    exact hall mapping hmem hkey ▸ hmapping mapping hmem
  rcases rewriteNode_eq_some.mp h with ⟨id, -, hid⟩ | ⟨-, hserver⟩
  · rcases lookup_insertItem hid with ⟨node, hmem, -, rfl⟩ | hnone
    · exact hnode node hmem
    · cases hnone
  · unfold ClusterRedirectionMap.rewriteServer at hserver
    split at hserver
    · split at hserver
      · rename_i hlookup
        cases hserver
        rcases ClusterRedirectionMap.fromMappings_upstream hlookup with ⟨mapping, hmem, -, rfl⟩
        exact hmapping mapping hmem
      · exact hport hserver
    · simp only [Option.bind_eq_bind, Option.bind_eq_some_iff] at hserver
      rcases hserver with ⟨_, -, port, -, hlookup⟩
      exact hport hlookup

/-- The reply to CLUSTER SHARDS is rewritten exactly.  The flat form is rewritten like the
map form.  In any shape, the shards and nodes that are kept are those with a listener, in
order, moved to it.  Every listener that the map of a discovered cluster has is an
endpoint. -/
theorem rewriteClusterShards_exact (lib : Externals) (map : ClusterRedirectionMap)
    (shards : List Shard) :
    flattenShards (shardsReply (shards.map (Shard.shaped false))) =
        shardsReply (shards.map (Shard.shaped true)) ∧
      rewriteClusterShards lib map (shardsReply (shards.map (Shard.shaped true))) =
        flattenShards
          (rewriteClusterShards lib map (shardsReply (shards.map (Shard.shaped false)))) ∧
      (∃ shards', rewriteClusterShards lib map (shardsReply shards) = shardsReply shards' ∧
        Remains (Shard.Localized lib map) shards shards') ∧
      ∀ slots : List LocalSlotRange,
        (∀ slot ∈ slots, ∀ node ∈ slot.nodes, node.localAddr.port < 2 ^ 16) →
          ∀ nodeId server text,
            (ClusterRedirectionMap.fromSlotRanges slots).rewriteNode lib nodeId server = some text →
              ∃ listener, TcpEndpoint.parse lib text = .ok listener := by
  refine ⟨flattenShards_reply shards, ?_, ?_, fun slots hports _ _ _ h =>
    endpoint_of_fromSlotRanges hports h⟩
  · rw [rewriteClusterShards_shaped, rewriteClusterShards_shaped, flattenShards_reply]
  · exact ⟨_, rewriteClusterShards_reply lib map shards,
      remains_filterMap (Shard.localize_eq_some lib map) shards⟩

end EvilResp
