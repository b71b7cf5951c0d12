import EvilResp.Cluster.Agreement
import EvilResp.Config.Topology

/-!
# Focused redirects

A focused redirect stays in the category it was configured for.  What it names comes from
the synthesized slots: the owner of a slot, its replicas, and the primaries in the order of
their first appearance.

Main results:

- Theorem {lit}`Redirection.parse_toFrame`: a redirection is read back from its error.
- Theorem {lit}`nodesOf_fromSlots`: what is read off the synthesized slots.
- Theorem {lit}`configuredRedirection_focused`: every redirect is in its category.
-/

namespace EvilResp

open Library
open EvilResp.Resp

/-! ## Reading a redirection back -/

theorem isField_kind (kind : RedirectionKind) : IsField kind.asStr := by
  cases kind with
  | moved => exact ⟨by decide, forall_mem_of_all (by decide)⟩
  | ask => exact ⟨by decide, forall_mem_of_all (by decide)⟩

theorem parseKind_asStr (kind : RedirectionKind) : Redirection.parseKind kind.asStr = some kind := by
  cases kind with
  | moved => rfl
  | ask => rfl

theorem isField_toString (n : Int) : IsField (toString n) := by
  constructor
  · intro hnil
    have hempty : toString n = "" := String.toList_injective hnil
    rw [Int.toString_eq_repr, Int.repr_eq_if] at hempty
    split at hempty
    · have hdigits := congrArg String.toList hempty
      rw [Nat.toList_repr] at hdigits
      exact Nat.toDigits_ne_nil hdigits
    · have hsign := congrArg String.toList hempty
      simp at hsign
  · intro c hc
    by_cases hminus : c = '-'
    · rw [hminus]
      decide
    · by_cases hdigit : c.isDigit = true
      · exact isWhitespace_of_isDigit hdigit
      · exact absurd hc (not_mem_toString_int hdigit hminus)

/-- A redirection is read back from its error. -/
theorem Redirection.parse_toFrame {redirection : Redirection}
    (hlow : -2 ^ 31 ≤ redirection.slot) (hhigh : redirection.slot < 2 ^ 31)
    (hserver : IsField redirection.server) :
    Redirection.parse redirection.toFrame = some redirection := by
  have hfields : splitWhitespace redirection.display =
      [redirection.kind.asStr, toString redirection.slot, redirection.server] := by
    have htext : redirection.display = redirection.kind.asStr ++ " " ++
        (toString redirection.slot ++ " " ++ redirection.server) := by
      apply String.toList_injective
      simp [display, String.toList_append, toString]
    rw [htext, splitWhitespace_cons (isField_kind _), splitWhitespace_cons (isField_toString _),
      splitWhitespace_of_isField hserver]
  have hslot : parseInteger (-2 ^ 31) (2 ^ 31 - 1) (toString redirection.slot) =
      .ok redirection.slot :=
    parseInteger_toString (by omega) (by omega) hlow (by omega)
  simp only [parse, toFrame, errorText, Option.bind_eq_bind, Option.bind_some, hfields,
    parseKind_asStr, hslot]
  rfl

/-! ## Servers are fields -/

theorem isField_connectAddr {endpoint : TcpEndpoint} (h : IsField endpoint.host) :
    IsField endpoint.connectAddr := by
  have hport : ∀ c ∈ endpoint.port.repr.toList, isWhitespace c = false := fun c hc =>
    isWhitespace_of_isDigit (isDigit_of_mem_repr hc)
  have hopen : isWhitespace '[' = false := by decide
  have hclose : isWhitespace ']' = false := by decide
  have hcolon : isWhitespace ':' = false := by decide
  rcases connectAddr_toList endpoint with htext | htext
  · constructor
    · rw [htext]
      simp
    · intro c hc
      rw [htext] at hc
      simp only [List.mem_append, List.mem_cons] at hc
      rcases hc with hc | rfl | hc
      · exact h.unspaced c hc
      · exact hcolon
      · exact hport c hc
  · constructor
    · rw [htext]
      simp
    · intro c hc
      rw [htext] at hc
      simp only [List.mem_append, List.mem_cons] at hc
      rcases hc with (rfl | hc) | rfl | rfl | hc
      · exact hopen
      · exact h.unspaced c hc
      · exact hclose
      · exact hcolon
      · exact hport c hc

theorem isWhitespace_of_isHexDigit {c : Char} (h : Ipv6.isHexDigit c = true) :
    isWhitespace c = false := by
  simp only [Ipv6.isHexDigit, decide_eq_true_eq] at h
  rcases h with h | ⟨hlow, hhigh⟩ | ⟨hlow, hhigh⟩
  · exact isWhitespace_of_isDigit h
  · have hlow' : 97 ≤ c.toNat := hlow
    have hhigh' : c.toNat ≤ 102 := hhigh
    exact isWhitespace_of_graphic (by omega) (by omega)
  · have hlow' : 65 ≤ c.toNat := hlow
    have hhigh' : c.toNat ≤ 70 := hhigh
    exact isWhitespace_of_graphic (by omega) (by omega)

theorem isWhitespace_of_isAddressChar {c : Char} (h : IpAddr.IsAddressChar c) :
    isWhitespace c = false := by
  rcases h with h | rfl | rfl
  · exact isWhitespace_of_isHexDigit h
  · decide
  · decide

theorem SocketAddr.isField_text (addr : SocketAddr) : IsField addr.text := by
  refine isField_connectAddr ⟨addr.plainHost.nonempty, fun c hc => ?_⟩
  rw [endpoint, String.toList_ofList] at hc
  exact isWhitespace_of_isAddressChar (IpAddr.isAddressChar_display hc)

/-! ## Checked settings -/

/-- What the command checked: a literal host is a field, and a fixed slot is a slot. -/
structure RedirectConfig.Checked (redirect : RedirectConfig) : Prop where
  target : ∀ endpoint, redirect.target = .endpoint endpoint → IsField endpoint.host
  slot : ∀ slot, redirect.slot = .fixed slot → slot < clusterSlotCount

namespace RedirectConfig

theorem isWhitespace_of_isHostChar {c : Char} (h : isHostChar c = true) :
    isWhitespace c = false := by
  have hletter : c.isAlpha = true → isWhitespace c = false := by
    intro halpha
    rcases Bool.or_eq_true_iff.mp halpha with hcase | hcase
    · have hbounds : 'A'.val ≤ c.val ∧ c.val ≤ 'Z'.val := of_decide_eq_true hcase
      have hlow : 65 ≤ c.toNat := hbounds.1
      have hhigh : c.toNat ≤ 90 := hbounds.2
      exact isWhitespace_of_graphic (by omega) (by omega)
    · have hbounds : (decide ('a'.val ≤ c.val) && decide (c.val ≤ 'z'.val)) = true := hcase
      rcases Bool.and_eq_true_iff.mp hbounds with ⟨hlow, hhigh⟩
      have hlow' : 97 ≤ c.toNat := of_decide_eq_true hlow
      have hhigh' : c.toNat ≤ 122 := of_decide_eq_true hhigh
      exact isWhitespace_of_graphic (by omega) (by omega)
  simp only [isHostChar, decide_eq_true_eq] at h
  rcases h with h | rfl | rfl | rfl | rfl
  · rcases Bool.or_eq_true_iff.mp h with halpha | hdigit
    · exact hletter halpha
    · exact isWhitespace_of_isDigit hdigit
  · decide
  · decide
  · decide
  · decide

variable {lib : Externals}

theorem isField_of_parseTarget {value : String} {endpoint : TcpEndpoint}
    (h : parseTarget lib value = .ok endpoint) : IsField endpoint.host := by
  unfold parseTarget at h
  split at h
  · cases h
  · rename_i found hfound
    split_ifs at h with hrefused
    cases h
    rw [not_or] at hrefused
    have hchars : endpoint.host.toList.all isHostChar = true := by simpa using hrefused.1
    have hhost := TcpEndpoint.parse_host_ne_empty hfound
    constructor
    · intro hnil
      have hempty : endpoint.host = "" := String.toList_injective hnil
      rw [hempty] at hhost
      cases hhost
    · intro c hc
      exact isWhitespace_of_isHostChar (List.all_eq_true.mp hchars c hc)

theorem lt_of_parseSlot {value : String} {slot : Nat} (h : parseSlot value = .ok (.fixed slot)) :
    slot < clusterSlotCount := by
  unfold parseSlot at h
  split at h
  · cases h
  · cases h
  · cases h
  · split at h
    · split_ifs at h with hlt
      cases h
      exact hlt
    · cases h

theorem isField_of_parseRedirectTarget {value : String} {endpoint : TcpEndpoint}
    (h : parseRedirectTarget lib value = .ok (.endpoint endpoint)) : IsField endpoint.host := by
  unfold parseRedirectTarget at h
  split at h
  · cases h
  · cases h
  · cases h
  · cases h
  · cases h
  · obtain ⟨found, hparse, hsame⟩ := map_eq_ok_iff.mp h
    obtain rfl := RedirectTarget.endpoint.inj hsame
    exact isField_of_parseTarget hparse

theorem Checked.applyOption {settings next : F64 × RedirectConfig} {option value : String}
    (hchecked : settings.2.Checked) (h : applyOption lib settings option value = .ok next) :
    next.2.Checked := by
  rcases settings with ⟨probability, redirect⟩
  unfold RedirectConfig.applyOption at h
  dsimp only at h hchecked
  split at h
  case h_8 => cases h
  all_goals
    rcases bind_eq_ok_iff.mp h with ⟨parsed, hparsed, hnext⟩
    cases hnext
  case h_3 =>
    refine ⟨fun endpoint hendpoint => ?_, hchecked.slot⟩
    exact isField_of_parseRedirectTarget (hparsed.trans (congrArg Except.ok hendpoint))
  case h_4 =>
    refine ⟨hchecked.target, fun slot hslot => ?_⟩
    exact lt_of_parseSlot (hparsed.trans (congrArg Except.ok hslot))
  all_goals exact ⟨hchecked.target, hchecked.slot⟩

theorem Checked.applyOptions {options : List (String × String)} :
    ∀ {seen : List String} {settings next : F64 × RedirectConfig}, settings.2.Checked →
      applyOptions lib options seen settings = .ok next → next.2.Checked := by
  induction options with
  | nil =>
      intro seen settings next hchecked h
      cases h
      exact hchecked
  | cons pair options ih =>
      intro seen settings next hchecked h
      rcases pair with ⟨option, value⟩
      simp only [RedirectConfig.applyOptions] at h
      split_ifs at h
      rcases bind_eq_ok_iff.mp h with ⟨middle, hmiddle, hrest⟩
      exact ih (hchecked.applyOption hmiddle) hrest

theorem checked_default : RedirectConfig.Checked {} where
  target := nofun
  slot := nofun

end RedirectConfig

/-- The settings of an accepted command were checked. -/
theorem checked_of_parseTopology {lib : Externals} {argv : List String} {probability : F64}
    {redirect : RedirectConfig} (h : parseTopology lib argv = .ok (probability, some redirect)) :
    redirect.Checked := by
  cases argv with
  | nil => cases h
  | cons first args =>
      simp only [parseTopology] at h
      by_cases hredirect : eqIgnoreAsciiCase first "REDIRECT" = true
      · simp only [hredirect, Bool.not_true, Bool.false_eq_true, if_false] at h
        split_ifs at h
        obtain ⟨settings, happly, hsame⟩ := map_eq_ok_iff.mp h
        obtain ⟨-, hredirect⟩ := Prod.mk.inj hsame
        obtain rfl := Option.some.inj hredirect
        exact RedirectConfig.Checked.applyOptions RedirectConfig.checked_default happly
      · simp only [hredirect, Bool.not_false, if_true] at h
        split_ifs at h
        · cases h
        · obtain ⟨value, -, hsame⟩ := map_eq_ok_iff.mp h
          cases hsame

/-! ## The synthesized slots -/

namespace LocalSlotRange

/-- The numbers of a range have 16 bits. -/
structure InBounds (range : LocalSlotRange) : Prop where
  start : range.start < 2 ^ 16
  stop : range.stop < 2 ^ 16
  ports : ∀ node ∈ range.nodes, node.localAddr.port < 2 ^ 16

/-- A range holds a slot. -/
def Holds (range : LocalSlotRange) (slot : Int) : Prop :=
  (range.start : Int) ≤ slot ∧ slot ≤ (range.stop : Int)

instance (range : LocalSlotRange) (slot : Int) : Decidable (range.Holds slot) := by
  unfold Holds
  infer_instance

/-- The name of the primary of a range. -/
def owner (range : LocalSlotRange) : String :=
  range.primary.localAddr.text

/-- The names of the replicas of a range. -/
def followers (range : LocalSlotRange) : List String :=
  range.replicas.map fun node => node.localAddr.text

end LocalSlotRange

/-- The primaries of a cluster in the order of their first appearance. -/
def primaryNames (slots : List LocalSlotRange) : List String :=
  (slots.map LocalSlotRange.owner).eraseDups

/-- The nodes that were found name primaries and replicas of the ranges seen, and for the
slot those of ranges that hold it. -/
structure NodesOf (slot : Int) (seen : List LocalSlotRange) (nodes : RedirectNodes) : Prop where
  primaries : nodes.primaries = primaryNames seen
  all : ∀ name ∈ nodes.all, name ∈ primaryNames seen ∨ ∃ range ∈ seen, name ∈ range.followers
  owner : ∀ name, nodes.owner = some name → ∃ range ∈ seen, range.Holds slot ∧ range.owner = name
  replicas : ∀ name ∈ nodes.replicas, ∃ range ∈ seen, range.Holds slot ∧ name ∈ range.followers

namespace RedirectNodes

theorem mem_insert {names : List String} {name other : String} (h : other ∈ insert names name) :
    other ∈ names ∨ other = name := by
  unfold insert at h
  split_ifs at h
  · exact .inl h
  · simpa using h

theorem insert_eraseDups (names : List String) (name : String) :
    insert names.eraseDups name = (names ++ [name]).eraseDups := by
  unfold insert
  by_cases h : name ∈ names
  · rw [if_pos (List.mem_eraseDups.mpr h), eraseDups_snoc_of_mem h]
  · rw [if_neg (mt List.mem_eraseDups.mp h), eraseDups_snoc_of_not_mem h]

/-- Replicas are listed, for the slot only if the range holds it. -/
theorem foldl_addReplica (ownsSlot : Bool) (names : List String) (nodes : RedirectNodes) :
    (names.foldl (addReplica ownsSlot) nodes).primaries = nodes.primaries ∧
      (names.foldl (addReplica ownsSlot) nodes).owner = nodes.owner ∧
      (∀ name ∈ (names.foldl (addReplica ownsSlot) nodes).all, name ∈ nodes.all ∨ name ∈ names) ∧
      ∀ name ∈ (names.foldl (addReplica ownsSlot) nodes).replicas,
        name ∈ nodes.replicas ∨ (ownsSlot = true ∧ name ∈ names) := by
  induction names generalizing nodes with
  | nil => exact ⟨rfl, rfl, fun _ => .inl, fun _ => .inl⟩
  | cons first names ih =>
      rcases ih (addReplica ownsSlot nodes first) with ⟨hprimaries, howner, hall, hreplicas⟩
      rw [List.foldl_cons]
      refine ⟨hprimaries, howner, fun name hname => ?_, fun name hname => ?_⟩
      · rcases hall name hname with h | h
        · rcases mem_insert h with h | rfl
          · exact .inl h
          · exact .inr List.mem_cons_self
        · exact .inr (List.mem_cons_of_mem _ h)
      · rcases hreplicas name hname with h | ⟨howns, h⟩
        · simp only [addReplica] at h
          split_ifs at h with howns
          · rcases mem_insert h with h | rfl
            · exact .inl h
            · exact .inr ⟨howns, List.mem_cons_self⟩
          · exact .inl h
        · exact .inr ⟨howns, List.mem_cons_of_mem _ h⟩

/-- One more range of the reply. -/
theorem addRange_toRespFrame {range : LocalSlotRange} (h : range.InBounds) (slot : Int)
    (nodes : RedirectNodes) :
    addRange slot nodes range.toRespFrame =
      range.followers.foldl (addReplica (range.Holds slot)) { nodes with
        primaries := insert nodes.primaries range.owner
        owner := if range.Holds slot then some range.owner else nodes.owner
        all := insert nodes.all range.owner } := by
  have hstart : (Int64.ofNat range.start).toInt = range.start :=
    Int64.toInt_ofNat_of_lt (by have := h.start; omega)
  have hstop : (Int64.ofNat range.stop).toInt = range.stop :=
    Int64.toInt_ofNat_of_lt (by have := h.stop; omega)
  have hprimary : nodeEndpoint range.primary.toRespFrame = some range.owner :=
    nodeEndpoint_toRespFrame (h.ports range.primary List.mem_cons_self)
  have hreplicas : (range.replicas.map LocalNode.toRespFrame).filterMap nodeEndpoint =
      range.followers := by
    rw [List.filterMap_map, LocalSlotRange.followers, ← List.filterMap_eq_map]
    refine List.filterMap_congr fun node hnode => ?_
    exact nodeEndpoint_toRespFrame (h.ports node (List.mem_cons_of_mem _ hnode))
  simp only [LocalSlotRange.toRespFrame, LocalSlotRange.nodes, List.map_cons, List.cons_append,
    List.nil_append, addRange, hprimary, hreplicas, hstart, hstop]
  simp only [LocalSlotRange.Holds, decide_eq_true_eq]

end RedirectNodes

theorem NodesOf.addRange {slot : Int} {seen : List LocalSlotRange} {nodes : RedirectNodes}
    (hnodes : NodesOf slot seen nodes) {range : LocalSlotRange} (h : range.InBounds) :
    NodesOf slot (seen ++ [range]) (nodes.addRange slot range.toRespFrame) := by
  have hnames : primaryNames (seen ++ [range]) =
      RedirectNodes.insert (primaryNames seen) range.owner := by
    rw [primaryNames, primaryNames, RedirectNodes.insert_eraseDups, List.map_append,
      List.map_singleton]
  have hlast : range ∈ seen ++ [range] := List.mem_append_right _ List.mem_cons_self
  have hkeep : ∀ name, name ∈ primaryNames seen ∨ (∃ range ∈ seen, name ∈ range.followers) →
      name ∈ primaryNames (seen ++ [range]) ∨
        ∃ other ∈ seen ++ [range], name ∈ other.followers := by
    rintro name (hname | ⟨other, hother, hname⟩)
    · refine .inl ?_
      rw [primaryNames, List.mem_eraseDups, List.map_append, List.mem_append]
      exact .inl (List.mem_eraseDups.mp hname)
    · exact .inr ⟨other, List.mem_append_left _ hother, hname⟩
  rw [RedirectNodes.addRange_toRespFrame h]
  rcases RedirectNodes.foldl_addReplica (range.Holds slot) range.followers { nodes with
      primaries := RedirectNodes.insert nodes.primaries range.owner
      owner := if range.Holds slot then some range.owner else nodes.owner
      all := RedirectNodes.insert nodes.all range.owner } with
    ⟨hprimaries, howner, hall, hreplicas⟩
  constructor
  · rw [hprimaries, hnames, hnodes.primaries]
  · intro name hname
    rcases hall name hname with hname | hname
    · rcases RedirectNodes.mem_insert hname with hname | rfl
      · exact hkeep name (hnodes.all name hname)
      · refine .inl ?_
        rw [primaryNames, List.mem_eraseDups, List.map_append, List.mem_append]
        exact .inr (List.mem_singleton.mpr rfl)
    · exact .inr ⟨range, hlast, hname⟩
  · intro name hname
    rw [howner] at hname
    dsimp only at hname
    split_ifs at hname with hholds
    · exact ⟨range, hlast, hholds, Option.some.inj hname⟩
    · rcases hnodes.owner name hname with ⟨other, hother, hfound⟩
      exact ⟨other, List.mem_append_left _ hother, hfound⟩
  · intro name hname
    rcases hreplicas name hname with hname | ⟨hholds, hname⟩
    · rcases hnodes.replicas name hname with ⟨other, hother, hfound⟩
      exact ⟨other, List.mem_append_left _ hother, hfound⟩
    · exact ⟨range, hlast, of_decide_eq_true hholds, hname⟩

/-- What is read off the synthesized slots. -/
theorem nodesOf_fromSlots {slots : List LocalSlotRange} (h : ∀ range ∈ slots, range.InBounds)
    (slot : Int) : NodesOf slot slots
      (RedirectNodes.fromSlots (.array (some (slots.map LocalSlotRange.toRespFrame))) slot) := by
  have hrun : ∀ (ranges seen : List LocalSlotRange) (nodes : RedirectNodes),
      (∀ range ∈ ranges, range.InBounds) → NodesOf slot seen nodes →
        NodesOf slot (seen ++ ranges)
          ((ranges.map LocalSlotRange.toRespFrame).foldl (RedirectNodes.addRange slot) nodes) := by
    intro ranges
    induction ranges with
    | nil =>
        intro seen nodes _ hnodes
        rwa [List.append_nil]
    | cons range ranges ih =>
        intro seen nodes hbounds hnodes
        rcases List.forall_mem_cons.mp hbounds with ⟨hrange, hranges⟩
        rw [List.append_cons]
        exact ih _ _ hranges (hnodes.addRange hrange)
  have hnone : NodesOf slot [] {} := by
    constructor
    · rfl
    · intro name hname
      cases hname
    · intro name hname
      cases hname
    · intro name hname
      cases hname
  exact hrun slots [] {} h hnone

/-! ## Categories -/

/-- The one primary that holds a slot. -/
def OwnerOf (slots : List LocalSlotRange) (slot : Int) (owner : String) : Prop :=
  (∃ range ∈ slots, range.Holds slot ∧ range.owner = owner) ∧
    ∀ range ∈ slots, range.Holds slot → range.owner = owner

/-- No slot is given to two different primaries. -/
def SingleOwner (slots : List LocalSlotRange) : Prop :=
  ∀ slot, ∀ range ∈ slots, ∀ other ∈ slots, range.Holds slot → other.Holds slot →
    range.owner = other.owner

/-- The servers of a target, for the slot that was looked up and the current listener. -/
inductive ServerOf (slots : List LocalSlotRange) (slot : Int) (listener : Option String) :
    RedirectTarget → String → Prop where
  | wrongNode {server owner : String} (howner : OwnerOf slots slot owner)
      (hserver : server ∈ primaryNames slots) (hne : server ≠ owner) :
      ServerOf slots slot listener .wrongNode server
  | selfNode {server : String} (hlistener : listener = some server)
      (hnode : server ∈ primaryNames slots ∨ ∃ range ∈ slots, server ∈ range.followers) :
      ServerOf slots slot listener .selfNode server
  | replica {server owner : String} (howner : OwnerOf slots slot owner)
      (hserver : ∃ range ∈ slots, range.Holds slot ∧ range.owner = owner ∧
        server ∈ range.followers) :
      ServerOf slots slot listener .replica server
  | following {server current : String} {index : Nat} (hlistener : listener = some current)
      (hcurrent : (primaryNames slots)[index]? = some current)
      (hserver : (primaryNames slots)[(index + 1) % (primaryNames slots).length]? = some server)
      (hne : server ≠ current) : ServerOf slots slot listener .next server
  | first {server current : String} (hlistener : listener = some current)
      (hreplica : ∃ range ∈ slots, current ∈ range.followers)
      (hcurrent : current ∉ primaryNames slots)
      (hserver : (primaryNames slots).head? = some server) : ServerOf slots slot listener .next server
  | random {server : String} (hserver : server ∈ primaryNames slots) :
      ServerOf slots slot listener .random server
  | endpoint (endpoint : TcpEndpoint) :
      ServerOf slots slot listener (.endpoint endpoint) endpoint.connectAddr

/-- The slots of a setting, for the slot of the key. -/
inductive SlotOf (key : Option Int) : RedirectSlot → Int → Prop where
  | correct {slot : Int} (hkey : key = some slot) : SlotOf key .correct slot
  | wrong {slot correct : Int} (hkey : key = some correct) (hlow : 0 ≤ slot)
      (hhigh : slot < clusterSlotCount) (hne : slot ≠ correct) : SlotOf key .wrong slot
  | wild {slot correct : Int} (hkey : key = some correct)
      (houtside : slot < 0 ∨ clusterSlotCount ≤ slot) : SlotOf key .wild slot
  | fixed (slot : Nat) : SlotOf key (.fixed slot) slot

/-- The kinds that a setting allows. -/
def KindOf : RedirectKind → RedirectionKind → Prop
  | .moved, kind => kind = .moved
  | .ask, kind => kind = .ask
  | .random, _ => True

/-- A redirect in its category: it is before the cutoff and in its phase, and its error is
read as a redirection whose parts are those of the settings. -/
structure Focused (slots : List LocalSlotRange) (redirect : RedirectConfig)
    (context : RedirectContext) (mutation : TopologyMutation) : Prop where
  cutoff : ∀ n, redirect.cutoff = some n → context.commandIndex.toNat < n
  phase : redirect.phase = .before ↔ context.upstreamBytes = none
  error : ∃ text, mutation.frame = .simpleError text
  category : ∃ redirection home, Redirection.parse mutation.frame = some redirection ∧
    correctSlot redirect context.command = some home ∧
    KindOf redirect.kind redirection.kind ∧
    SlotOf (commandSlot context.command redirect.key) redirect.slot redirection.slot ∧
    ServerOf slots home (context.listener.map TcpEndpoint.connectAddr) redirect.target
      redirection.server

/-! ## Drawn parts -/

theorem all_choose {targets : List String} :
    (choose targets).All fun outcome => ∀ server, outcome = some server → server ∈ targets := by
  unfold choose
  split_ifs with hempty
  · intro server hserver
    cases hserver
  · rw [Draw.all_map, Draw.all_pick]
    refine ⟨hempty, fun target htarget server hserver => ?_⟩
    cases hserver
    exact htarget

theorem SingleOwner.ownerOf {slots : List LocalSlotRange} (h : SingleOwner slots) {slot : Int}
    {range : LocalSlotRange} (hrange : range ∈ slots) (hholds : range.Holds slot) :
    OwnerOf slots slot range.owner :=
  ⟨⟨range, hrange, hholds, rfl⟩, fun other hother hslot =>
    h slot other hother range hrange hslot hholds⟩

/-- The next of at least two distinct names is another one. -/
theorem ne_of_next {names : List String} (hnodup : names.Nodup) (htwo : 2 ≤ names.length)
    {index : Nat} {current next : String} (hcurrent : names[index]? = some current)
    (hnext : names[(index + 1) % names.length]? = some next) : next ≠ current := by
  rintro rfl
  have hlt := (List.getElem?_eq_some_iff.mp hcurrent).1
  have hsame := (List.getElem?_inj hlt hnodup).mp (hcurrent.trans hnext.symm)
  rcases Nat.lt_or_ge (index + 1) names.length with hinner | hlast
  · rw [Nat.mod_eq_of_lt hinner] at hsame
    omega
  · have hwrap : index + 1 = names.length := by omega
    rw [hwrap, Nat.mod_self] at hsame
    omega

theorem all_redirectServer {slots : List LocalSlotRange} {slot : Int} {nodes : RedirectNodes}
    (hnodes : NodesOf slot slots nodes) (howners : SingleOwner slots) (redirect : RedirectConfig)
    (listener : Option String) :
    (redirectServer redirect nodes listener).All fun outcome => ∀ server, outcome = some server →
      ServerOf slots slot listener redirect.target server := by
  unfold redirectServer
  split
  case h_1 endpoint htarget =>
    intro server hserver
    cases hserver
    rw [htarget]
    exact .endpoint endpoint
  case h_2 htarget =>
    intro server hserver
    rw [htarget]
    rcases Option.filter_eq_some_iff.mp hserver with ⟨hlistener, hmem⟩
    exact .selfNode hlistener (hnodes.all server (of_decide_eq_true hmem))
  case h_3 htarget =>
    rw [htarget]
    split
    · intro server hserver
      cases hserver
    · rename_i owner howner
      rcases hnodes.owner owner howner with ⟨range, hrange, hholds, rfl⟩
      refine Draw.all_mono all_choose fun outcome houtcome server hserver => ?_
      have hmem := List.mem_filter.mp (houtcome server hserver)
      refine .wrongNode (howners.ownerOf hrange hholds) ?_ (of_decide_eq_true hmem.2)
      exact hnodes.primaries ▸ hmem.1
  case h_4 htarget =>
    rw [htarget]
    refine Draw.all_mono all_choose fun outcome houtcome server hserver => ?_
    rcases hnodes.replicas server (houtcome server hserver) with ⟨range, hrange, hholds, hmem⟩
    exact .replica (howners.ownerOf hrange hholds) ⟨range, hrange, hholds, rfl, hmem⟩
  case h_5 htarget =>
    rw [htarget]
    refine Draw.all_mono all_choose fun outcome houtcome server hserver => ?_
    exact .random (hnodes.primaries ▸ houtcome server hserver)
  case h_6 htarget =>
    rw [htarget]
    split
    · intro server hserver
      cases hserver
    · rename_i current
      split_ifs with hfew hprimary
      · intro server hserver
        cases hserver
      · intro server hserver
        rw [not_or, not_lt] at hfew
        rw [hnodes.primaries] at hfew hprimary hserver
        exact .following rfl (List.getElem?_idxOf hprimary) hserver
          (ne_of_next (nodup_eraseDups _) hfew.1 (List.getElem?_idxOf hprimary) hserver)
      · intro server hserver
        rw [not_or, not_not] at hfew
        rw [hnodes.primaries] at hprimary hserver
        have hreplica := (hnodes.all current hfew.2).resolve_left hprimary
        exact .first rfl hreplica hprimary (List.head?_eq_getElem? ▸ hserver)

theorem all_genI32 : genI32.All fun value => -2 ^ 31 ≤ value ∧ value < 2 ^ 31 := by
  refine Draw.all_bind.mpr (all_genBits fun bits _ => ?_)
  have hlow := BitVec.le_toInt (BitVec.ofNat 32 bits)
  have hhigh := BitVec.toInt_lt (x := BitVec.ofNat 32 bits)
  exact ⟨by simpa using hlow, by simpa using hhigh⟩

/-- A wrong slot is a slot, and another one. -/
theorem all_wrongValidSlot (current : Int) : (wrongValidSlot current).All fun slot : Int =>
    0 ≤ slot ∧ slot < clusterSlotCount ∧ slot ≠ current := by
  have hcount : clusterSlotCount = 16384 := rfl
  refine Draw.all_bind.mpr (all_genRange (by decide) fun n _ hn => ?_)
  have hlt : (n + 1) % clusterSlotCount < clusterSlotCount := Nat.mod_lt _ (by decide)
  by_cases hsame : (n : Int) = current
  · rw [if_pos hsame]
    refine ⟨by omega, by omega, ?_⟩
    rw [← hsame, hcount]
    omega
  · rw [if_neg hsame]
    exact ⟨by omega, by omega, hsame⟩

theorem all_redirectSlot (redirect : RedirectConfig) {key : Option Int} {correct : Int}
    (hkey : (∀ slot, redirect.slot ≠ .fixed slot) → key = some correct)
    (hfixed : ∀ slot, redirect.slot = .fixed slot → correct = slot) (hlow : 0 ≤ correct)
    (hhigh : correct < clusterSlotCount) :
    (redirectSlot redirect correct).All fun slot =>
      SlotOf key redirect.slot slot ∧ -2 ^ 31 ≤ slot ∧ slot < 2 ^ 31 := by
  have hcount : clusterSlotCount = 16384 := rfl
  unfold redirectSlot
  split
  case h_1 hslot =>
    rw [hslot]
    exact ⟨.correct (hkey (by rw [hslot]; nofun)), by omega, by omega⟩
  case h_2 slot hslot =>
    obtain rfl := hfixed slot hslot
    rw [hslot]
    exact ⟨.fixed slot, by omega, by omega⟩
  case h_3 hslot =>
    have hcorrect := hkey (by rw [hslot]; nofun)
    rw [hslot]
    refine Draw.all_mono (all_wrongValidSlot correct) fun slot h => ?_
    exact ⟨.wrong hcorrect h.1 h.2.1 h.2.2, by omega, by omega⟩
  case h_4 hslot =>
    have hcorrect := hkey (by rw [hslot]; nofun)
    rw [hslot]
    refine Draw.all_bind.mpr (Draw.all_mono all_genI32 fun value hvalue => ?_)
    by_cases hinside : 0 ≤ value ∧ value < clusterSlotCount
    · rw [if_pos hinside]
      exact ⟨.wild hcorrect (.inl (by decide)), by decide, by decide⟩
    · rw [if_neg hinside]
      exact ⟨.wild hcorrect (by omega), hvalue.1, hvalue.2⟩

theorem all_redirectKind (redirect : RedirectConfig) :
    (redirectKind redirect).All (KindOf redirect.kind) := by
  unfold redirectKind
  split
  case h_1 hkind =>
    rw [hkind]
    rfl
  case h_2 hkind =>
    rw [hkind]
    rfl
  case h_3 hkind =>
    rw [hkind]
    exact Draw.all_mono safe_drawKind fun _ _ => trivial

/-! ## Every redirect -/

theorem commandSlot_range {command : Frame} {key : Nat} {slot : Int}
    (h : commandSlot command key = some slot) : 0 ≤ slot ∧ slot < clusterSlotCount := by
  unfold commandSlot at h
  split at h
  · split at h
    · cases h
      exact redisSlot_range _
    · cases h
      exact redisSlot_range _
    · cases h
      exact redisSlot_range _
    · cases h
  · rcases Option.map_eq_some_iff.mp h with ⟨bytes, -, rfl⟩
    exact redisSlot_range bytes
  · cases h

/-- The server of a redirect is one field of its error. -/
theorem ServerOf.isField {slots : List LocalSlotRange} {slot : Int} {listener : Option String}
    {redirect : RedirectConfig} {server : String} (hchecked : redirect.Checked)
    (h : ServerOf slots slot listener redirect.target server) : IsField server := by
  have hprimary : ∀ name ∈ primaryNames slots, IsField name := by
    intro name hname
    rcases List.mem_map.mp (List.mem_eraseDups.mp hname) with ⟨range, -, rfl⟩
    exact range.primary.localAddr.isField_text
  have hfollower : ∀ range : LocalSlotRange, ∀ name ∈ range.followers, IsField name := by
    intro range name hname
    rcases List.mem_map.mp hname with ⟨node, -, rfl⟩
    exact node.localAddr.isField_text
  generalize htarget : redirect.target = target at h
  cases h with
  | wrongNode _ hserver _ => exact hprimary server hserver
  | selfNode _ hnode =>
      rcases hnode with hserver | ⟨range, -, hserver⟩
      · exact hprimary server hserver
      · exact hfollower range server hserver
  | replica _ hserver =>
      rcases hserver with ⟨range, -, -, -, hserver⟩
      exact hfollower range server hserver
  | following _ _ hserver _ => exact hprimary server (List.mem_of_getElem? hserver)
  | first _ _ _ hserver => exact hprimary server (List.mem_of_head? hserver)
  | random hserver => exact hprimary server hserver
  | endpoint endpoint => exact isField_connectAddr (hchecked.target endpoint htarget)

/-- The slot that is looked up is that of the key, or the fixed one. -/
theorem correctSlot_cases {redirect : RedirectConfig} {command : Frame} {home : Int}
    (hchecked : redirect.Checked) (h : correctSlot redirect command = some home) :
    ((∀ slot, redirect.slot ≠ .fixed slot) → commandSlot command redirect.key = some home) ∧
      (∀ slot, redirect.slot = .fixed slot → home = slot) ∧ 0 ≤ home ∧ home < clusterSlotCount := by
  unfold correctSlot at h
  split at h
  · rename_i slot hslot
    cases h
    have hlt := hchecked.slot slot hslot
    refine ⟨fun hother => absurd hslot (hother slot), fun other hother => ?_, by omega, by omega⟩
    rw [hslot] at hother
    cases hother
    rfl
  · rename_i hother
    exact ⟨fun _ => h, fun slot hslot => absurd hslot (hother slot), commandSlot_range h⟩

/-- Every outcome of the draws is in its category. -/
theorem all_drawRedirection {slots : List LocalSlotRange} {redirect : RedirectConfig}
    {context : RedirectContext} (hchecked : redirect.Checked)
    (hbounds : ∀ range ∈ slots, range.InBounds) (howners : SingleOwner slots)
    (hslots : context.localSlots = .array (some (slots.map LocalSlotRange.toRespFrame)))
    (hcutoff : ∀ n, redirect.cutoff = some n → context.commandIndex.toNat < n)
    (hphase : redirect.phase = .before ↔ context.upstreamBytes = none) (probability : F64) :
    (drawRedirection probability redirect context).All fun outcome =>
      ∀ mutation, outcome = some mutation → Focused slots redirect context mutation := by
  have hnothing : (Draw.done none : Draw (Option TopologyMutation)).All fun outcome =>
      ∀ mutation, outcome = some mutation → Focused slots redirect context mutation := by
    intro mutation hmutation
    cases hmutation
  refine Draw.all_bind.mpr ((safe_shouldApply probability).all fun applies => ?_)
  split_ifs
  · exact hnothing
  · cases hhome : correctSlot redirect context.command with
    | none => exact hnothing
    | some home =>
        rcases correctSlot_cases hchecked hhome with ⟨hkey, hfixed, hlow, hhigh⟩
        have hnodes := nodesOf_fromSlots hbounds home
        rw [← hslots] at hnodes
        refine Draw.all_bind.mpr (Draw.all_mono (all_redirectServer hnodes howners redirect
          (context.listener.map TcpEndpoint.connectAddr)) fun outcome houtcome => ?_)
        cases outcome with
        | none => exact hnothing
        | some server =>
            have hserver := houtcome server rfl
            refine Draw.all_bind.mpr (Draw.all_mono (all_redirectSlot redirect hkey hfixed hlow
              hhigh) fun slot hslot => ?_)
            refine Draw.all_bind.mpr (Draw.all_mono (all_redirectKind redirect)
              fun kind hkind => ?_)
            intro mutation hmutation
            cases hmutation
            have hparse : Redirection.parse ({ kind, slot, server : Redirection }.toFrame) =
                some { kind, slot, server } :=
              Redirection.parse_toFrame hslot.2.1 hslot.2.2 (hserver.isField hchecked)
            constructor
            · exact hcutoff
            · exact hphase
            · exact ⟨_, rfl⟩
            · exact ⟨_, home, hparse, hhome, hkind, hslot.1, hserver⟩

/-- Focused redirects stay in their category, whatever is drawn, and nothing is drawn from
an empty range. -/
theorem configuredRedirection_focused (lib : Externals) {argv : List String} {probability : F64}
    {redirect : RedirectConfig} (hredirect : parseTopology lib argv = .ok (probability, some redirect))
    {targets : List ProxyTarget} {slots : List LocalSlotRange}
    (hbounds : ∀ range ∈ slots, range.InBounds) (howners : SingleOwner slots)
    {config : EvilConfig} (hconfig : config.topologyRedirect = some redirect)
    {context : RedirectContext}
    (hslots : (Topology.cluster targets slots).localSlotsResponse = some context.localSlots) :
    (∃ outcome, configuredRedirection lib config context = some outcome) ∧
      ∀ mutation, configuredRedirection lib config context = some (some mutation) →
        Focused slots redirect context mutation := by
  refine ⟨configuredRedirection_isSome lib config context, fun mutation hmutation => ?_⟩
  have hlocal : context.localSlots = .array (some (slots.map LocalSlotRange.toRespFrame)) :=
    (Option.some.inj hslots).symm
  unfold configuredRedirection at hmutation
  rw [hconfig] at hmutation
  dsimp only at hmutation
  by_cases hactive : redirectActive config redirect context = true
  · simp only [hactive, Bool.not_true, Bool.false_eq_true, if_false] at hmutation
    simp only [redirectActive, decide_eq_true_eq] at hactive
    rcases hactive with ⟨-, hcutoff, hphase⟩
    have hbefore : ∀ n, redirect.cutoff = some n → context.commandIndex.toNat < n := by
      intro n hn
      rw [hn] at hcutoff
      simpa using hcutoff
    have hall := all_drawRedirection (checked_of_parseTopology hredirect) hbounds howners hlocal
      hbefore hphase config.topologyProbability
    rcases Draw.run_of_all hall (topologyRng lib config.seed context.commandIndex
      context.commandHash ((context.upstreamBytes.map (deterministicHash lib)).getD ""))
      with ⟨outcome, hrun, hfocused⟩
    rw [hmutation] at hrun
    cases hrun
    exact hfocused mutation rfl
  · rw [if_pos (by simpa using hactive)] at hmutation
    cases hmutation

/-- Two primaries with half of the slots each. -/
def halvedSlots : List LocalSlotRange :=
  [{ start := 0, stop := 8191, primary := loopbackNode "a" 6379 none 7000,
     replicas := [loopbackNode "c" 6379 none 7002] },
   { start := 8192, stop := 16383, primary := loopbackNode "b" 6379 none 7001, replicas := [] }]

/-- A read of a key, on a cluster of two halves. -/
def redirectedContext : RedirectContext where
  commandIndex := 3
  commandHash := ""
  command := .array (some [.bulkString (some (asBytes "GET")), .bulkString (some (asBytes "k"))])
  upstreamBytes := none
  localSlots := .array (some (halvedSlots.map LocalSlotRange.toRespFrame))
  listener := none

/-- A read of one half is sent to the primary of the other. -/
theorem configuredRedirection_focused_wrongNode :
    ∃ mutation, configuredRedirection default
        { topologyProbability := .hundred, topologyRedirect := some {} } redirectedContext =
          some (some mutation) ∧
      Focused halvedSlots {} redirectedContext mutation := by
  have hbounds : ∀ range ∈ halvedSlots, range.InBounds := by
    intro range hrange
    simp only [halvedSlots, List.mem_cons, List.not_mem_nil, or_false] at hrange
    rcases hrange with rfl | rfl
    · exact ⟨by decide, by decide, by decide⟩
    · exact ⟨by decide, by decide, by decide⟩
  have howners : SingleOwner halvedSlots := by
    intro slot range hrange other hother hholds hholds'
    simp only [halvedSlots, List.mem_cons, List.not_mem_nil, or_false] at hrange hother
    unfold LocalSlotRange.Holds at hholds hholds'
    rcases hrange with rfl | rfl
    · rcases hother with rfl | rfl
      · rfl
      · dsimp only at hholds hholds'
        omega
    · rcases hother with rfl | rfl
      · dsimp only at hholds hholds'
        omega
      · rfl
  have hdrawn : ((configuredRedirection default
      { topologyProbability := .hundred, topologyRedirect := some {} }
        redirectedContext).join).isSome = true := by
    decide +kernel
  have hcommand : parseTopology default ["REDIRECT"] = .ok (.hundred, some {}) := rfl
  have hconfig : ({ topologyProbability := .hundred, topologyRedirect := some {} } :
      EvilConfig).topologyRedirect = some {} := rfl
  have hslots : (Topology.cluster [] halvedSlots).localSlotsResponse =
      some redirectedContext.localSlots := rfl
  rcases configuredRedirection_focused default hcommand hbounds howners hconfig hslots with
    ⟨⟨outcome, houtcome⟩, hcategory⟩
  rw [houtcome] at hdrawn
  rcases Option.isSome_iff_exists.mp hdrawn with ⟨mutation, hmutation⟩
  obtain rfl : outcome = some mutation := hmutation
  exact ⟨mutation, houtcome, hcategory mutation houtcome⟩

end EvilResp
