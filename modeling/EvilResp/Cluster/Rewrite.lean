import EvilResp.Cluster.Redirection
import EvilResp.Config.Options
import EvilResp.Library.Lossy

/-!
# Rewriting of topology replies

The replies to CLUSTER SHARDS and CLUSTER NODES name upstream servers.  They are
answered by the upstream and rewritten, so that cluster-aware clients connect back
through the local listeners.  Nodes without a listener are removed.

Main results:

- Theorem {lit}`rewriteNodesLine_eq`: what a line becomes, from its ID, its address and
  the rest.
- Theorem {lit}`rewriteClusterNodes_verbatim_iff`: verbatim replies, whose text starts
  with a format, are rewritten like bulk strings exactly if the format does not change
  the listener of the first node.
-/

namespace EvilResp

open Library
open EvilResp.Resp

/-- The words of a cluster command, in any letter case. -/
def isClusterSubcommand (argv : List String) (subcommand : String) : Bool :=
  match argv with
  | [command, name] => eqIgnoreAsciiCase command "CLUSTER" ∧ eqIgnoreAsciiCase name subcommand
  | _ => false

/-- The command that asks for the shards. -/
def isClusterShards (argv : List String) : Bool :=
  isClusterSubcommand argv "SHARDS"

/-- The command that asks for the nodes. -/
def isClusterNodes (argv : List String) : Bool :=
  isClusterSubcommand argv "NODES"

/-! ## Entries -/

/-- The text of the three kinds that carry strings. -/
def stringOf : Frame → Option String
  | .bulkString (some bytes) => some (fromUtf8Lossy bytes)
  | .verbatimString bytes => some (fromUtf8Lossy bytes)
  | .simpleString value => some value
  | _ => none

/-- A key has a name. -/
def keyIs (key : Frame) (name : String) : Bool :=
  (stringOf key).any (eqIgnoreAsciiCase · name)

/-- Key/value pairs of a RESP3 map or of the flat RESP2 array in its place, with the
shape to rebuild. -/
structure MapEntries where
  flat : Bool
  pairs : List (Frame × Frame)

namespace MapEntries

/-- Read the entries of a map, in either of its forms. -/
def parse : Frame → Option MapEntries
  | .map pairs => some { flat := false, pairs }
  | .array (some items) =>
      let (pairs, remainder) := asChunks2 items
      if remainder = [] ∧ pairs.all (fun pair => (stringOf pair.1).isSome) then
        some { flat := true, pairs }
      else none
  | _ => none

/-- The entries in the form in which they were read. -/
def intoFrame (entries : MapEntries) : Frame :=
  if entries.flat then .array (some (entries.pairs.flatMap fun pair => [pair.1, pair.2]))
  else .map entries.pairs

/-- The value of the first entry with a name. -/
def value (entries : MapEntries) (name : String) : Option Frame :=
  (entries.pairs.find? fun pair => keyIs pair.1 name).map Prod.snd

/-- The text of such a value. -/
def string (entries : MapEntries) (name : String) : Option String := do
  let value ← entries.value name
  let text ← stringOf value
  if text.isEmpty then none else some text

/-- The number that such a value is. -/
def integer (entries : MapEntries) (name : String) : Option Int := do
  match ← entries.value name with
  | .integer value => some value.toInt
  | other => do
      let text ← stringOf other
      (parseI64 text).toOption.map Int64.toInt

end MapEntries

/-! ## Shards -/

section

variable (lib : Externals) (map : ClusterRedirectionMap)

/-- The listener of a node, as an endpoint. -/
def localEndpoint (nodeId : Option String) (host : String) (port : Int) : Option TcpEndpoint := do
  if port < 0 ∨ 65535 < port then none
  else
    let upstream :=
      if host.isEmpty ∨ host = "?" then s!":{port}"
      else ({ host, port := port.toNat } : TcpEndpoint).connectAddr
    let listener ← map.rewriteNode lib (nodeId.map asBytes) upstream
    (TcpEndpoint.parse lib listener).toOption

/-- One entry of a node with its listener in place of the address. -/
def rewriteNodeEntry (listener : TcpEndpoint) (pair : Frame × Frame) : Frame × Frame :=
  if keyIs pair.1 "ip" ∨ keyIs pair.1 "endpoint" ∨ keyIs pair.1 "hostname" then
    (pair.1, .bulkString (some (asBytes listener.host)))
  else if keyIs pair.1 "port" then (pair.1, .integer (Int64.ofNat listener.port))
  else pair

/-- A node with its local endpoint; {lit}`none` if it has none. -/
def rewriteShardNode (node : Frame) : Option Frame := do
  let entries ← MapEntries.parse node
  let port ← entries.integer "port"
  let host := (entries.string "ip").getD
    ((entries.string "endpoint").getD ((entries.string "hostname").getD ""))
  let listener ← localEndpoint lib map (entries.string "id") host port
  some { entries with pairs := entries.pairs.map (rewriteNodeEntry listener) }.intoFrame

/-- The entries of a shard with their nodes rewritten, and whether the last list of
nodes kept any. -/
def rewriteShardEntries : List (Frame × Frame) → Bool → List (Frame × Frame) × Bool
  | [], hasNodes => ([], hasNodes)
  | (key, .array (some nodes)) :: pairs, hasNodes =>
      if keyIs key "nodes" then
        let kept := nodes.filterMap (rewriteShardNode lib map)
        let (rest, hasNodes) := rewriteShardEntries pairs !kept.isEmpty
        ((key, .array (some kept)) :: rest, hasNodes)
      else
        let (rest, hasNodes) := rewriteShardEntries pairs hasNodes
        ((key, .array (some nodes)) :: rest, hasNodes)
  | pair :: pairs, hasNodes =>
      let (rest, hasNodes) := rewriteShardEntries pairs hasNodes
      (pair :: rest, hasNodes)

/-- A shard without the nodes that have no listener. -/
def rewriteShard (shard : Frame) : Option Frame := do
  let entries ← MapEntries.parse shard
  let (pairs, hasNodes) := rewriteShardEntries lib map entries.pairs false
  if hasNodes then some { entries with pairs }.intoFrame else none

/-- A reply that is no array of shards is returned unchanged. -/
def rewriteClusterShards : Frame → Frame
  | .array (some shards) => .array (some (shards.filterMap (rewriteShard lib map)))
  | reply => reply

/-! ## Node lines -/

/-- The bus port and the fields after it, without the announced hostname. -/
def rewriteBus (bus : List Char) : List Char :=
  match bus.splitOn ',' with
  | [] => []
  | port :: extra =>
      port ++ (extra.mapIdx fun index field => ',' :: (if 0 < index then field else [])).flatten

/-- A line with its local endpoint; {lit}`none` if it has none. -/
def rewriteNodesLine (line : List Char) : Option (List Char) := do
  let (id, rest) ← splitOnce ' ' line
  let (address, rest) := (splitOnce ' ' rest).getD (rest, [])
  let (socket, bus) :=
    match splitOnce '@' address with
    | some (socket, bus) => (socket, '@' :: rewriteBus bus)
    | none => (address, [])
  let listener ← map.rewriteNode lib (some (asBytes (String.ofList id))) (String.ofList socket)
  let rewritten := id ++ ' ' :: listener.toList ++ bus
  some (if rest = [] then rewritten else rewritten ++ ' ' :: rest)

/-- The lines of a reply that have a listener. -/
def rewriteNodesText (text : Bytes) : Bytes :=
  let kept := (lines (fromUtf8Lossy text).toList).filterMap (rewriteNodesLine lib map)
  asBytes (String.ofList (kept.flatMap fun line => line ++ ['\n']))

/-- The reply to {lit}`CLUSTER NODES` as the client gets it. -/
def rewriteClusterNodes : Frame → Frame
  | .bulkString (some text) => .bulkString (some (rewriteNodesText lib map text))
  | .verbatimString text => .verbatimString (rewriteNodesText lib map text)
  | reply => reply

end

variable {lib : Externals} {map : ClusterRedirectionMap}

/-! ## Lines -/

/-- The address in what follows a node ID. -/
def nodeSocket (rest : List Char) : List Char :=
  let address := ((splitOnce ' ' rest).getD (rest, [])).1
  ((splitOnce '@' address).map Prod.fst).getD address

/-- What a rewritten line keeps after the address. -/
def nodeTail (rest : List Char) : List Char :=
  let (address, rest) := (splitOnce ' ' rest).getD (rest, [])
  (match splitOnce '@' address with
    | some (_, bus) => '@' :: rewriteBus bus
    | none => []) ++ (if rest = [] then [] else ' ' :: rest)

/-- A line becomes its ID, the listener for its ID and address, and the rest. -/
theorem rewriteNodesLine_eq (lib : Externals) (map : ClusterRedirectionMap) (line : List Char) :
    rewriteNodesLine lib map line =
      (splitOnce ' ' line).bind fun (id, rest) =>
        (map.rewriteNode lib (some (asBytes (String.ofList id)))
          (String.ofList (nodeSocket rest))).map fun listener =>
            id ++ ' ' :: listener.toList ++ nodeTail rest := by
  rw [rewriteNodesLine]
  cases splitOnce ' ' line with
  | none => rfl
  | some fields =>
      rcases fields with ⟨id, rest⟩
      simp only [Option.bind_eq_bind, Option.bind_some, nodeSocket, nodeTail]
      cases splitOnce '@' ((splitOnce ' ' rest).getD (rest, [])).1 with
      | none =>
          simp only [Option.map_none, Option.getD_none]
          cases map.rewriteNode lib _ _ with
          | none => rfl
          | some listener =>
              by_cases hrest : ((splitOnce ' ' rest).getD (rest, [])).2 = []
              · simp [hrest]
              · simp [hrest]
      | some parts =>
          simp only [Option.map_some, Option.getD_some]
          cases map.rewriteNode lib _ _ with
          | none => rfl
          | some listener =>
              by_cases hrest : ((splitOnce ' ' rest).getD (rest, [])).2 = []
              · simp [hrest]
              · simp [hrest]

/-! ## Verbatim replies -/

/-- The format that a verbatim node list starts with. -/
def verbatimFormat : String :=
  "txt:"

/-- The first line names a node, and the node has the same listener under its ID and
under its ID after the format. -/
def FirstNodeKept (lib : Externals) (map : ClusterRedirectionMap) (text : Bytes) : Prop :=
  ∃ first others id rest listener,
    lines (fromUtf8Lossy text).toList = first :: others ∧ splitOnce ' ' first = some (id, rest) ∧
    map.rewriteNode lib (some (asBytes (String.ofList id))) (String.ofList (nodeSocket rest)) =
      some listener ∧
    map.rewriteNode lib (some (asBytes (verbatimFormat ++ String.ofList id)))
      (String.ofList (nodeSocket rest)) = some listener

theorem fromUtf8Lossy_format (text : Bytes) :
    (fromUtf8Lossy (asBytes verbatimFormat ++ text)).toList =
      verbatimFormat.toList ++ (fromUtf8Lossy text).toList := by
  rw [fromUtf8Lossy, fromUtf8Lossy, String.toList_ofList, String.toList_ofList, lossyChars_append]

/-- What the lines of a text become, one after another. -/
def rewriteLines (lib : Externals) (map : ClusterRedirectionMap) (lines : List (List Char)) :
    List Char :=
  (lines.filterMap (rewriteNodesLine lib map)).flatMap fun line => line ++ ['\n']

theorem rewriteNodesText_eq (lib : Externals) (map : ClusterRedirectionMap) (text : Bytes) :
    rewriteNodesText lib map text =
      asBytes (String.ofList (rewriteLines lib map (lines (fromUtf8Lossy text).toList))) :=
  rfl

theorem rewriteLines_cons (line : List Char) (lines : List (List Char)) :
    rewriteLines lib map (line :: lines) =
      ((rewriteNodesLine lib map line).map (· ++ ['\n'])).getD [] ++ rewriteLines lib map lines := by
  unfold rewriteLines
  cases hline : rewriteNodesLine lib map line with
  | none => simp [hline]
  | some rewritten => simp [hline]

/-- With the format in front, a line keeps it and asks for another ID. -/
theorem rewriteNodesLine_format (line : List Char) :
    rewriteNodesLine lib map (verbatimFormat.toList ++ line) =
      ((splitOnce ' ' line).bind fun fields =>
        (map.rewriteNode lib (some (asBytes (verbatimFormat ++ String.ofList fields.1)))
          (String.ofList (nodeSocket fields.2))).map fun listener =>
            fields.1 ++ ' ' :: listener.toList ++ nodeTail fields.2).map
              (verbatimFormat.toList ++ ·) := by
  have hspace : ' ' ∉ verbatimFormat.toList := by decide
  rw [rewriteNodesLine_eq, splitOnce_append hspace]
  cases splitOnce ' ' line with
  | none => rfl
  | some fields =>
      rcases fields with ⟨id, rest⟩
      simp only [Option.map_some, Option.bind_some, Option.map_map, String.ofList_append,
        String.ofList_toList]
      congr 1

/-- Lines in front of the same rest differ by what is in front of them only if both are
kept and the lines are the same. -/
theorem keptLine_append_iff {front : List Char} (hfront : front ≠ [])
    (formatted plain : Option (List Char)) (rest : List Char) :
    ((formatted.map (front ++ ·)).map (· ++ ['\n'])).getD [] ++ rest =
        front ++ ((plain.map (· ++ ['\n'])).getD [] ++ rest) ↔
      ∃ line, formatted = some line ∧ plain = some line := by
  have hlength := List.length_pos_of_ne_nil hfront
  cases formatted with
  | none =>
      refine iff_of_false (fun heq => ?_) (by simp)
      have hcount := congrArg List.length heq
      simp only [Option.map_none, Option.getD_none, List.length_append, List.length_nil] at hcount
      omega
  | some line =>
      cases plain with
      | none =>
          refine iff_of_false (fun heq => ?_) (by simp)
          have hcount := congrArg List.length heq
          simp only [Option.map_some, Option.getD_some, Option.map_none, Option.getD_none,
            List.length_append, List.length_nil, List.length_singleton] at hcount
          omega
      | some other =>
          simp only [Option.map_some, Option.getD_some, List.append_assoc,
            List.append_cancel_left_eq, Option.some.injEq, exists_eq_left']
          rw [← List.append_assoc, ← List.append_assoc, List.append_cancel_right_eq,
            List.append_cancel_right_eq, eq_comm]

/-- With the format in front, only the first line changes. -/
theorem rewriteLines_format_iff (text : Bytes) :
    rewriteLines lib map (lines (verbatimFormat.toList ++ (fromUtf8Lossy text).toList)) =
        verbatimFormat.toList ++ rewriteLines lib map (lines (fromUtf8Lossy text).toList) ↔
      FirstNodeKept lib map text := by
  have hfront : verbatimFormat.toList ≠ [] := by decide
  rw [lines_append (by decide) (by decide) (by decide), rewriteLines_cons, rewriteNodesLine_format]
  cases hlines : lines (fromUtf8Lossy text).toList with
  | nil =>
      refine (keptLine_append_iff hfront _ none []).trans (iff_of_false (by simp) ?_)
      rintro ⟨first, others, id, rest, listener, hfirst, -⟩
      rw [hlines] at hfirst
      cases hfirst
  | cons first others =>
      rw [rewriteLines_cons, List.headD_cons, List.tail_cons, keptLine_append_iff hfront,
        rewriteNodesLine_eq]
      constructor
      · rintro ⟨line, hformat, hplain⟩
        rcases Option.bind_eq_some_iff.mp hformat with ⟨⟨id, rest⟩, hfields, hformat⟩
        rw [hfields, Option.bind_some] at hplain
        rcases Option.map_eq_some_iff.mp hformat with ⟨listener, hasked, rfl⟩
        rcases Option.map_eq_some_iff.mp hplain with ⟨other, hfound, hsame⟩
        rw [List.append_cancel_right_eq, List.append_cancel_left_eq] at hsame
        obtain rfl := String.toList_inj.mp (List.cons.inj hsame).2
        exact ⟨first, others, id, rest, other, hlines, hfields, hfound, hasked⟩
      · rintro ⟨first', others', id, rest, listener, hfirst, hfields, hplain, hformat⟩
        rw [hlines] at hfirst
        cases hfirst
        refine ⟨id ++ ' ' :: listener.toList ++ nodeTail rest, ?_, ?_⟩
        · simp only [hfields, Option.bind_some, hformat, Option.map_some]
        · simp only [hfields, Option.bind_some, hplain, Option.map_some]

/-- Verbatim replies are rewritten like bulk strings, with their format kept, exactly if
the format does not change the listener of the first node. -/
theorem rewriteClusterNodes_verbatim_iff (lib : Externals) (map : ClusterRedirectionMap)
    (text : Bytes) :
    (∀ rewritten, rewriteClusterNodes lib map (.bulkString (some text)) =
        .bulkString (some rewritten) →
      rewriteClusterNodes lib map (.verbatimString (asBytes verbatimFormat ++ text)) =
        .verbatimString (asBytes verbatimFormat ++ rewritten)) ↔
      FirstNodeKept lib map text := by
  have hclaim : (∀ rewritten, rewriteClusterNodes lib map (.bulkString (some text)) =
        .bulkString (some rewritten) →
      rewriteClusterNodes lib map (.verbatimString (asBytes verbatimFormat ++ text)) =
        .verbatimString (asBytes verbatimFormat ++ rewritten)) ↔
      rewriteNodesText lib map (asBytes verbatimFormat ++ text) =
        asBytes verbatimFormat ++ rewriteNodesText lib map text := by
    constructor
    · intro h
      exact Frame.verbatimString.inj (h _ rfl)
    · intro h rewritten hbulk
      have hsame : rewriteNodesText lib map text = rewritten :=
        Option.some.inj (Frame.bulkString.inj hbulk)
      rw [← hsame]
      exact congrArg Frame.verbatimString h
  have hformat : asBytes verbatimFormat ++ asBytes (String.ofList
      (rewriteLines lib map (lines (fromUtf8Lossy text).toList))) =
      asBytes (String.ofList (verbatimFormat.toList ++
        rewriteLines lib map (lines (fromUtf8Lossy text).toList))) := by
    rw [String.ofList_append, asBytes_append, String.ofList_toList]
  rw [hclaim, ← rewriteLines_format_iff, rewriteNodesText_eq, rewriteNodesText_eq,
    fromUtf8Lossy_format, hformat, asBytes_injective.eq_iff, String.ofList_inj]

/-- The only node is known by its ID alone: the format hides the ID, and the node is
dropped together with the format. -/
theorem rewriteClusterNodes_verbatim_lost :
    ¬ ∀ (lib : Externals) (map : ClusterRedirectionMap) (text rewritten : Bytes),
      rewriteClusterNodes lib map (.bulkString (some text)) = .bulkString (some rewritten) →
      rewriteClusterNodes lib map (.verbatimString (asBytes verbatimFormat ++ text)) =
        .verbatimString (asBytes verbatimFormat ++ rewritten) := by
  intro h
  have hlost := h default { localByNodeId := [(asBytes "a", "l:1")] } (asBytes "a b:2\n")
    (asBytes "a l:1\n") (by decide)
  revert hlost
  decide

end EvilResp
