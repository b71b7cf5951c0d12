import EvilResp.Cluster.Focused
import EvilResp.Library.Outcome

/-!
# Wrong servers

The legacy fault of a server compares texts.  The redirection of the upstream names a listener
as the map does, with brackets around an IPv6 address; the candidates are put together from the
synthesized slots without them.  The fault names another node as long as the two forms agree,
and under an IPv6 address it may name the same node again.

Main results:

- Theorem {lit}`redirectionTargets_toRespFrame`: the candidates are the primaries without
  brackets.
- Theorem {lit}`all_applyRedirectionMutations`: a recorded server is a candidate with another
  text.
- Theorem {lit}`wrongServer_namesAnother_iff`: when the fault names another node.
- Theorem {lit}`wrongServer_namesSame`: a fault that names the same node.
-/

namespace EvilResp

open Library
open EvilResp.Resp

/-! ## Two forms of a listener -/

namespace IpAddr

theorem colon_mem_fmtSubslice (first second : UInt16) (rest : List UInt16) :
    ':' ∈ Ipv6.fmtSubslice (first :: second :: rest) := by
  simp [Ipv6.fmtSubslice]

theorem colon_mem_ipv6 {segments : List UInt16} (h : 1 < segments.length) :
    ':' ∈ Ipv6.display segments := by
  unfold Ipv6.display
  split
  · simp
  · split
    · simp
    · match segments, h with
      | first :: second :: rest, _ => exact colon_mem_fmtSubslice first second rest

/-- Only an IPv6 address has colons in its text. -/
theorem colon_mem_display_iff {ip : IpAddr} :
    ':' ∈ ip.display ↔ ∃ segments, ip = .v6 segments := by
  cases ip with
  | v4 octets =>
      refine iff_of_false ?_ (by simp)
      intro hcolon
      rcases mem_intercalate hcolon with hdot | ⟨part, hpart, hdigit⟩
      · exact absurd (List.mem_singleton.mp hdot) (by decide)
      · obtain ⟨octet, -, rfl⟩ := List.mem_map.mp hpart
        exact absurd (isDigit_of_mem_repr hdigit) (by decide)
  | v6 segments =>
      refine iff_of_true ?_ ⟨segments, rfl⟩
      apply colon_mem_ipv6
      simp

end IpAddr

namespace SocketAddr

/-- The form without brackets. -/
def unbracketed (addr : SocketAddr) : String :=
  s!"{String.ofList addr.ip.display}:{addr.port}"

theorem unbracketed_eq (addr : SocketAddr) :
    addr.unbracketed = String.ofList (addr.ip.display ++ ':' :: addr.port.repr.toList) := by
  apply String.toList_injective
  simp [unbracketed, String.toList_append, toString, ToString.toString]

theorem isField_unbracketed (addr : SocketAddr) : IsField addr.unbracketed := by
  rw [unbracketed_eq]
  constructor
  · simp
  · intro c hc
    rw [String.toList_ofList, List.mem_append, List.mem_cons] at hc
    rcases hc with haddress | rfl | hport
    · exact isWhitespace_of_isAddressChar (IpAddr.isAddressChar_display haddress)
    · decide
    · exact isWhitespace_of_isDigit (isDigit_of_mem_repr hport)

/-- Both forms are read as the same endpoint. -/
theorem parse_unbracketed (lib : Externals) {addr : SocketAddr} (hport : addr.port < 2 ^ 16) :
    TcpEndpoint.parse lib addr.unbracketed = .ok addr.endpoint := by
  have hparse := TcpEndpoint.parse_plain lib addr.plainHost hport
  rw [endpoint, String.toList_ofList] at hparse
  rw [unbracketed_eq]
  exact hparse

theorem text_of_colon_free {addr : SocketAddr} (h : ':' ∉ addr.ip.display) :
    addr.text = addr.unbracketed := by
  have hplain : ¬ (addr.endpoint.host.toList.contains ':' = true ∧
      addr.endpoint.host.toList.head? ≠ some '[') := by
    simp [endpoint, h]
  rw [text, TcpEndpoint.connectAddr, if_neg hplain]
  rfl

/-- The form with brackets starts with one, the other form does not. -/
theorem unbracketed_ne_text {addr other : SocketAddr} (h : ':' ∈ other.ip.display) :
    addr.unbracketed ≠ other.text := by
  have hopen : '[' ∉ other.endpoint.host.toList := other.plainHost.open_free
  have hhead : other.endpoint.host.toList.head? ≠ some '[' := by
    intro hhead
    exact hopen (List.mem_of_head? hhead)
  have hbracketed : other.text.toList.head? = some '[' := by
    rw [text, TcpEndpoint.connectAddr, if_pos ⟨by simpa [endpoint] using h, hhead⟩]
    simp [String.toList_append, toString]
  intro heq
  obtain ⟨c, cs, hcs⟩ := List.exists_cons_of_ne_nil addr.ip.display_ne_nil
  rw [← heq, unbracketed_eq, String.toList_ofList, hcs] at hbracketed
  have hc : c = '[' := Option.some.inj hbracketed
  have hmem : '[' ∈ addr.endpoint.host.toList := by
    rw [endpoint, String.toList_ofList, hcs, hc]
    exact List.mem_cons_self
  exact addr.plainHost.open_free hmem

end SocketAddr

/-! ## Candidates -/

/-- The candidates are the primaries without brackets. -/
theorem redirectionTargets_toRespFrame {mapped : List LocalSlotRange}
    (hports : ∀ range ∈ mapped, range.primary.localAddr.port < 2 ^ 16) :
    redirectionTargets (.array (some (mapped.map LocalSlotRange.toRespFrame))) =
      mapped.map fun range => range.primary.localAddr.unbracketed := by
  rw [redirectionTargets, List.filterMap_map, ← List.filterMap_eq_map]
  apply List.filterMap_congr
  intro range hrange
  simp only [Function.comp_apply, LocalSlotRange.toRespFrame, LocalSlotRange.nodes,
    List.map_cons, List.cons_append, List.nil_append, LocalNode.toRespFrame, frameString,
    fromUtf8Lossy_asBytes, portOf_ofNat (hports range hrange)]
  rfl

/-! ## Draws -/

/-- A fault with a positive probability applies under some draw. -/
theorem outcome_shouldApply {probability : F64} (h : F64.zero.lt probability = true) :
    (shouldApply probability).Outcome true := by
  rw [shouldApply, if_pos h, Draw.outcome_map_iff]
  refine ⟨.zero, ⟨⟨0, by decide⟩, ?_⟩, h⟩
  simp [F64.zero]

/-- A fault without one never applies. -/
theorem all_shouldApply_positive (probability : F64) :
    (shouldApply probability).All fun applies =>
      applies = true → F64.zero.lt probability = true := by
  unfold shouldApply
  split
  · rename_i hpositive
    rw [Draw.all_map]
    exact all_percent fun _ _ _ _ => hpositive
  · simp

/-- The slots that an error text can carry. -/
def InRange (slot : Int) : Prop :=
  -2 ^ 31 ≤ slot ∧ slot < 2 ^ 31

/-- A fault that keeps the server, and what was recorded. -/
structure SameServer (faulted out : Faulted) : Prop where
  server : out.1.server = faulted.1.server
  slot : InRange faulted.1.slot → InRange out.1.slot
  recorded : ∀ record ∈ faulted.2, record ∈ out.2
  fresh : ∀ record ∈ out.2, record ∈ faulted.2 ∨ record.kind ≠ .topologyWrongServer

theorem SameServer.refl (faulted : Faulted) : SameServer faulted faulted :=
  ⟨rfl, id, fun _ => id, fun _ => .inl⟩

theorem SameServer.trans {first second third : Faulted} (h : SameServer first second)
    (hnext : SameServer second third) : SameServer first third where
  server := hnext.server.trans h.server
  slot := hnext.slot ∘ h.slot
  recorded record hrecord := hnext.recorded record (h.recorded record hrecord)
  fresh record hrecord := by
    rcases hnext.fresh record hrecord with hold | hother
    · exact h.fresh record hold
    · exact .inr hother

/-- One more record, which names no server. -/
theorem sameServer_append {redirection : Redirection} {faulted : Faulted}
    {record : AppliedMutation} (hserver : redirection.server = faulted.1.server)
    (hslot : InRange faulted.1.slot → InRange redirection.slot)
    (hrecord : record.kind ≠ .topologyWrongServer) :
    SameServer faulted (redirection, faulted.2 ++ [record]) where
  server := hserver
  slot := hslot
  recorded other hother := List.mem_append_left _ hother
  fresh other hother := by
    rcases List.mem_append.mp hother with hold | hnew
    · exact .inl hold
    · exact .inr (List.mem_singleton.mp hnew ▸ hrecord)

theorem inRange_of_slot {slot : Int} (hlow : 0 ≤ slot) (hhigh : slot < clusterSlotCount) :
    InRange slot := by
  have hcount : clusterSlotCount = 16384 := rfl
  unfold InRange
  omega

theorem all_wrongKind (probability : F64) (faulted : Faulted) :
    (wrongKind probability faulted).All (SameServer faulted) := by
  refine Draw.all_bind.mpr ((safe_shouldApply probability).all fun applies => ?_)
  cases applies with
  | true => exact sameServer_append rfl id (by decide)
  | false => exact .refl faulted

theorem all_wrongSlot (probability : F64) (faulted : Faulted) :
    (wrongSlot probability faulted).All (SameServer faulted) := by
  refine Draw.all_bind.mpr ((safe_shouldApply probability).all fun applies => ?_)
  cases applies with
  | true =>
      refine Draw.all_bind.mpr (Draw.all_mono (all_wrongValidSlot _) fun slot hslot => ?_)
      exact sameServer_append rfl (fun _ => inRange_of_slot hslot.1 hslot.2.1) (by decide)
  | false => exact .refl faulted

theorem all_wildSlot (probability : F64) (faulted : Faulted) :
    (wildSlot probability faulted).All (SameServer faulted) := by
  refine Draw.all_bind.mpr ((safe_shouldApply probability).all fun applies => ?_)
  cases applies with
  | true =>
      refine Draw.all_bind.mpr (Draw.all_mono all_genI32 fun slot hslot => ?_)
      exact sameServer_append rfl (fun _ => hslot) (by decide)
  | false => exact .refl faulted

/-- The record of a server, and the redirection that names it. -/
def withServer (faulted : Faulted) (server : String) : Faulted :=
  ({ faulted.1 with server },
    faulted.2 ++ [{ path := "topology.server", kind := .topologyWrongServer }])

/-- The candidates that a text leaves. -/
def Candidate (targets : List String) (current server : String) : Prop :=
  server ∈ targets ∧ server ≠ current

theorem all_otherServer (probability : F64) (targets : List String) (faulted : Faulted) :
    (otherServer probability targets faulted).All fun out => out = faulted ∨
      F64.zero.lt probability = true ∧
        ∃ server, Candidate targets faulted.1.server server ∧ out = withServer faulted server := by
  refine Draw.all_bind.mpr (Draw.all_mono (all_shouldApply_positive probability) ?_)
  intro applies happlies
  cases applies with
  | true =>
      refine Draw.all_bind.mpr (Draw.all_mono all_choose fun outcome houtcome => ?_)
      cases outcome with
      | none => exact .inl rfl
      | some server =>
          have hserver := List.mem_filter.mp (houtcome server rfl)
          have hcandidate : Candidate targets faulted.1.server server :=
            ⟨hserver.1, of_decide_eq_true hserver.2⟩
          exact .inr ⟨happlies rfl, server, hcandidate, rfl⟩
  | false => exact .inl rfl

/-- Every candidate is drawn under some source. -/
theorem outcome_otherServer {probability : F64} (h : F64.zero.lt probability = true)
    {targets : List String} {faulted : Faulted} {server : String}
    (hserver : Candidate targets faulted.1.server server) :
    (otherServer probability targets faulted).Outcome (withServer faulted server) := by
  have hmem : server ∈ targets.filter (· ≠ faulted.1.server) :=
    List.mem_filter.mpr ⟨hserver.1, decide_eq_true hserver.2⟩
  have hchoose : (wrongServer faulted.1.server targets).Outcome (some server) := by
    rw [wrongServer, choose, if_neg (List.ne_nil_of_mem hmem), Draw.outcome_map_iff]
    exact ⟨server, Draw.outcome_pick_iff.mpr hmem, rfl⟩
  apply Draw.outcome_bind_iff.mpr
  refine ⟨true, outcome_shouldApply h, ?_⟩
  exact Draw.outcome_bind_iff.mpr ⟨some server, hchoose, rfl⟩

/-- What all faults together leave of a redirection. -/
inductive ServerFault (probability : F64) (targets : List String) (faulted out : Faulted) : Prop
    where
  | kept (h : SameServer faulted out)
  | replaced (hpositive : F64.zero.lt probability = true)
      (hserver : Candidate targets faulted.1.server out.1.server)
      (hslot : InRange faulted.1.slot → InRange out.1.slot)

/-- A recorded server is a candidate with another text. -/
theorem all_applyRedirectionMutations (probability : F64) (targets : List String)
    (faulted : Faulted) : (applyRedirectionMutations probability targets faulted).All
      (ServerFault probability targets faulted) := by
  refine Draw.all_bind.mpr (Draw.all_mono (all_wrongKind _ _) fun first hfirst => ?_)
  refine Draw.all_bind.mpr (Draw.all_mono (all_wrongSlot _ _) fun second hsecond => ?_)
  refine Draw.all_bind.mpr (Draw.all_mono (all_otherServer _ _ _) fun third hthird => ?_)
  refine Draw.all_mono (all_wildSlot _ _) fun out hout => ?_
  have hbefore := hfirst.trans hsecond
  rcases hthird with rfl | ⟨hpositive, server, hserver, rfl⟩
  · exact .kept (hbefore.trans hout)
  · rw [hbefore.server] at hserver
    have hsame : out.1.server = server := hout.server
    exact .replaced hpositive (hsame ▸ hserver) fun hslot => hout.slot (hbefore.slot hslot)

/-- Every candidate is recorded under some source. -/
theorem outcome_applyRedirectionMutations {probability : F64}
    (h : F64.zero.lt probability = true) {targets : List String} {faulted : Faulted}
    {server : String} (hserver : Candidate targets faulted.1.server server) :
    ∃ out, (applyRedirectionMutations probability targets faulted).Outcome out ∧
      out.1.server = server ∧ (InRange faulted.1.slot → InRange out.1.slot) ∧
      ∃ record ∈ out.2, record.kind = .topologyWrongServer := by
  obtain ⟨first, hfirst, hkind⟩ := Draw.exists_outcome (all_wrongKind probability faulted)
  obtain ⟨second, hsecond, hslot⟩ := Draw.exists_outcome (all_wrongSlot probability first)
  have hbefore := hkind.trans hslot
  have hthird := outcome_otherServer h (hbefore.server.symm ▸ hserver)
  obtain ⟨out, hout, hafter⟩ := Draw.exists_outcome
    (all_wildSlot probability (withServer second server))
  refine ⟨out, ?_, hafter.server, fun hrange => hafter.slot (hbefore.slot hrange), ?_⟩
  · apply Draw.outcome_bind_iff.mpr
    refine ⟨first, hfirst, Draw.outcome_bind_iff.mpr ⟨second, hsecond, ?_⟩⟩
    exact Draw.outcome_bind_iff.mpr ⟨_, hthird, hout⟩
  · exact ⟨_, hafter.recorded _ (List.mem_append_right _ List.mem_cons_self), rfl⟩

/-- A changed redirection is one outcome of the faults. -/
theorem outcome_drawTopology_iff {probability : F64} {targets : List String} {command : Frame}
    {current : Redirection} {mutation : TopologyMutation} :
    (drawTopology probability targets command (some current)).Outcome (some mutation) ↔
      ∃ out, (applyRedirectionMutations probability targets (current, [])).Outcome out ∧
        out.2 ≠ [] ∧ mutation = { frame := out.1.toFrame, mutations := out.2 } := by
  rw [drawTopology, Draw.outcome_bind_iff]
  apply exists_congr
  intro out
  apply and_congr_right
  intro _
  rw [Draw.pure_eq, Draw.outcome_done_iff]
  by_cases hempty : out.2 = []
  · simp [hempty]
  · simp [hempty, eq_comm]

/-! ## Normalized redirections -/

theorem parse_toMatchingFrame {redirection : Redirection} (hslot : InRange redirection.slot)
    (hserver : IsField redirection.server) (f : Frame) :
    Redirection.parse (redirection.toMatchingFrame f) = some redirection := by
  have hframe := Redirection.parse_toFrame hslot.1 hslot.2 hserver
  unfold Redirection.toMatchingFrame
  split
  · have htext : Redirection.errorText (.bulkError (asBytes redirection.display)) =
        Redirection.errorText redirection.toFrame := by
      rw [Redirection.errorText, fromUtf8_asBytes]
      rfl
    rw [Redirection.parse, htext]
    exact hframe
  · exact hframe

theorem inRange_of_parse {f : Frame} {redirection : Redirection}
    (h : Redirection.parse f = some redirection) : InRange redirection.slot := by
  simp only [Redirection.parse, Option.bind_eq_bind, Option.bind_eq_some_iff] at h
  obtain ⟨value, -, h⟩ := h
  split at h
  · rename_i code text server _ _
    simp only [Option.bind_eq_some_iff] at h
    obtain ⟨kind, -, slot, hslot, hredirection⟩ := h
    obtain rfl := Option.some.inj hredirection
    have hbounds := parseInteger_bounds (by decide) (by decide) (toOption_eq_some_iff.mp hslot)
    exact ⟨hbounds.1, Int.lt_of_le_sub_one hbounds.2⟩
  · cases h

section

variable {lib : Externals} {listen : SocketAddr} {slots mapped : List LocalSlotRange}
  {targets : List ProxyTarget} {node : LocalNode}

/-- All listeners share the address to listen on. -/
theorem Listeners.display_eq (h : Listeners listen slots targets mapped)
    (hnode : node ∈ clusterNodes mapped) : node.localAddr.ip.display = listen.ip.display := by
  have hlisted := h.listed node hnode
  rw [h.ports] at hlisted
  obtain ⟨offset, -, heq⟩ := List.mem_map.mp hlisted
  have hhost : String.ofList listen.ip.display = String.ofList node.localAddr.ip.display :=
    congrArg TcpEndpoint.host (Endpoint.tcp.inj heq)
  exact (String.ofList_injective hhost).symm

/-- A normalized redirection names the listener of a node. -/
theorem Listeners.exists_node (h : Listeners listen slots targets mapped) {f g : Frame}
    (hnormal : normalizeRedirection lib f (.fromSlotRanges mapped) = some g)
    {current : Redirection} (hcurrent : Redirection.parse g = some current) :
    ∃ node ∈ clusterNodes mapped, node.localAddr.text = current.server := by
  simp only [normalizeRedirection, Option.bind_eq_bind, Option.bind_eq_some_iff] at hnormal
  obtain ⟨redirection, hparse, hnormal⟩ := hnormal
  split at hnormal
  · obtain rfl := Option.some.inj hnormal
    cases hcurrent
  · rename_i server hserver
    obtain rfl := Option.some.inj hnormal
    have hslot := inRange_of_parse hparse
    have hnode : ∃ node ∈ clusterNodes mapped, node.localAddr.text = server := by
      rcases (h.foundBy hserver).reason with ⟨_, -, node, hnode, -, htext⟩ | ⟨port, -, hport, hall⟩
      · exact ⟨node, hnode, htext⟩
      · obtain ⟨node, hnode, hsame⟩ := hport
        exact ⟨node, hnode, hall node hnode hsame⟩
    obtain ⟨node, hnode, rfl⟩ := hnode
    have hread := @parse_toMatchingFrame { redirection with server := node.localAddr.text } hslot
      node.localAddr.isField_text f
    rw [hread] at hcurrent
    obtain rfl := Option.some.inj hcurrent
    exact ⟨node, hnode, rfl⟩

end

/-! ## Another node -/

/-- A recorded wrong server is read as another endpoint than the server that was named. -/
def NamesAnother (lib : Externals) (current : Redirection) (mutation : TopologyMutation) : Prop :=
  (∃ record ∈ mutation.mutations, record.kind = .topologyWrongServer) →
    ∃ emitted endpoint named, Redirection.parse mutation.frame = some emitted ∧
      TcpEndpoint.parse lib emitted.server = .ok endpoint ∧
      TcpEndpoint.parse lib current.server = .ok named ∧ endpoint ≠ named

/-- The fault may apply, and the redirection names a primary by an IPv6 address. -/
structure NamesPrimary (config : EvilConfig) (listen : SocketAddr) (mapped : List LocalSlotRange)
    (current : Redirection) : Prop where
  drawn : F64.zero.lt config.topologyProbability = true
  legacy : config.topologyRedirect = none
  ipv6 : ∃ segments, listen.ip = .v6 segments
  primary : ∃ range ∈ mapped, range.primary.localAddr.text = current.server

section

variable {lib : Externals} {config : EvilConfig} {listen : SocketAddr}
  {slots mapped : List LocalSlotRange} {targets : List ProxyTarget} {current : Redirection}

theorem primary_mem_clusterNodes {range : LocalSlotRange} (h : range ∈ mapped) :
    range.primary ∈ clusterNodes mapped :=
  List.mem_flatMap.mpr ⟨range, h, List.mem_cons_self⟩

theorem Listeners.candidates (h : Listeners listen slots targets mapped) :
    redirectionTargets (.array (some (mapped.map LocalSlotRange.toRespFrame))) =
      mapped.map fun range => range.primary.localAddr.unbracketed := by
  apply redirectionTargets_toRespFrame
  intro range hrange
  exact h.port_lt (primary_mem_clusterNodes hrange)

/-- A primary that is no candidate for its own name has another name. -/
theorem Listeners.primary_ne (h : Listeners listen slots targets mapped)
    (hsafe : ¬ NamesPrimary config listen mapped current)
    (hdrawn : F64.zero.lt config.topologyProbability = true)
    (hlegacy : config.topologyRedirect = none) {range : LocalSlotRange} (hrange : range ∈ mapped)
    (hne : range.primary.localAddr.unbracketed ≠ current.server) :
    range.primary.localAddr.text ≠ current.server := by
  by_cases hipv6 : ∃ segments, listen.ip = .v6 segments
  · intro htext
    exact hsafe ⟨hdrawn, hlegacy, hipv6, range, hrange, htext⟩
  · have hcolon : ':' ∉ range.primary.localAddr.ip.display := by
      rw [h.display_eq (primary_mem_clusterNodes hrange), IpAddr.colon_mem_display_iff]
      exact hipv6
    rwa [SocketAddr.text_of_colon_free hcolon]

/-- What the faults leave of a normalized redirection names another node, outside the one case. -/
theorem Listeners.namesAnother (h : Listeners listen slots targets mapped)
    (hsafe : ¬ NamesPrimary config listen mapped current)
    (hlegacy : config.topologyRedirect = none) {node : LocalNode}
    (hnode : node ∈ clusterNodes mapped) (hserver : node.localAddr.text = current.server)
    (hslot : InRange current.slot) {out : Faulted}
    (hout : ServerFault config.topologyProbability
      (mapped.map fun range => range.primary.localAddr.unbracketed) (current, []) out) :
    NamesAnother lib current { frame := out.1.toFrame, mutations := out.2 } := by
  rintro ⟨record, hrecord, hkind⟩
  cases hout with
  | kept hsame =>
      rcases hsame.fresh record hrecord with hold | hother
      · cases hold
      · exact absurd hkind hother
  | replaced hpositive hcandidate hrange =>
      obtain ⟨range, hmem, hunbracketed⟩ := List.mem_map.mp hcandidate.1
      have hne : range.primary.localAddr.unbracketed ≠ current.server :=
        hunbracketed ▸ hcandidate.2
      have htext := h.primary_ne hsafe hpositive hlegacy hmem hne
      have hprimary := h.port_lt (primary_mem_clusterNodes hmem)
      refine ⟨out.1, range.primary.localAddr.endpoint, node.localAddr.endpoint, ?_, ?_, ?_, ?_⟩
      · apply Redirection.parse_toFrame (hrange hslot).1 (hrange hslot).2
        rw [← hunbracketed]
        exact SocketAddr.isField_unbracketed _
      · rw [← hunbracketed]
        exact SocketAddr.parse_unbracketed lib hprimary
      · rw [← hserver]
        exact SocketAddr.parse_text lib (h.port_lt hnode)
      · rwa [ne_eq, SocketAddr.endpoint_eq_iff lib hprimary (h.port_lt hnode), hserver]

/-- In the one case a draw names the same node again. -/
theorem Listeners.exists_same (lib : Externals) (h : Listeners listen slots targets mapped)
    (hnames : NamesPrimary config listen mapped current) (hslot : InRange current.slot) :
    ∃ out, (applyRedirectionMutations config.topologyProbability
        (mapped.map fun range => range.primary.localAddr.unbracketed) (current, [])).Outcome out ∧
      out.2 ≠ [] ∧ ¬ NamesAnother lib current { frame := out.1.toFrame, mutations := out.2 } := by
  obtain ⟨range, hrange, htext⟩ := hnames.primary
  have hport := h.port_lt (primary_mem_clusterNodes hrange)
  have hcolon : ':' ∈ range.primary.localAddr.ip.display := by
    rw [h.display_eq (primary_mem_clusterNodes hrange), IpAddr.colon_mem_display_iff]
    exact hnames.ipv6
  have hcandidate : Candidate (mapped.map fun range => range.primary.localAddr.unbracketed)
      current.server range.primary.localAddr.unbracketed := by
    refine ⟨List.mem_map_of_mem hrange, ?_⟩
    rw [← htext]
    exact SocketAddr.unbracketed_ne_text hcolon
  obtain ⟨out, hout, hserver, hrange', record, hrecord, hkind⟩ :=
    @outcome_applyRedirectionMutations _ hnames.drawn _ (current, []) _ hcandidate
  refine ⟨out, hout, List.ne_nil_of_mem hrecord, fun hanother => ?_⟩
  obtain ⟨emitted, endpoint, named, hemitted, hendpoint, hnamed, hne⟩ :=
    hanother ⟨record, hrecord, hkind⟩
  have hread := Redirection.parse_toFrame (hrange' hslot).1 (hrange' hslot).2
    (hserver ▸ SocketAddr.isField_unbracketed _)
  rw [hread] at hemitted
  obtain rfl := Option.some.inj hemitted
  rw [hserver, SocketAddr.parse_unbracketed lib hport] at hendpoint
  rw [← htext, SocketAddr.parse_text lib hport] at hnamed
  exact hne (Except.ok.inj (hendpoint.symm.trans hnamed))

/-- Under every random stream, what is recorded for a reply names another node. -/
def AlwaysNamesAnother (lib : Externals) (config : EvilConfig) (commandIndex : UInt64)
    (commandHash : String) (command : Frame) (bytes : Bytes) (localSlots : Frame)
    (current : Redirection) : Prop :=
  ∀ (source : Draw.Source) (mutation : TopologyMutation),
    maybeMutateTopology { lib with chacha20 := fun _ => source } config commandIndex commandHash
        command (some bytes) localSlots = .ok (some (some mutation)) →
      NamesAnother lib current mutation

/-- The mutations of a redirection are the outcomes of its faults. -/
theorem maybeMutateTopology_redirection (lib : Externals) {g : Frame} {bytes : Bytes} {localSlots : Frame}
    (hbytes : parseFrame bytes = .ok g) (hcurrent : Redirection.parse g = some current)
    (hpositive : config.topologyProbability.le .zero = false)
    (hlegacy : config.topologyRedirect = none) (hcandidates : redirectionTargets localSlots ≠ [])
    (source : Draw.Source) (commandIndex : UInt64) (commandHash : String) (command : Frame) :
    maybeMutateTopology { lib with chacha20 := fun _ => source } config commandIndex commandHash
        command (some bytes) localSlots =
      .ok ((drawTopology config.topologyProbability (redirectionTargets localSlots) command
        (some current)).run source) := by
  have hoff : ¬ (config.topologyProbability.le .zero = true ∨
      config.topologyRedirect.isSome = true) := by
    simp [hpositive, hlegacy]
  have hupstream : upstreamRedirection (some bytes) = .ok (some current) := by
    rw [upstreamRedirection, hbytes, ← hcurrent]
    rfl
  rw [maybeMutateTopology, if_neg hoff]
  simp only [if_neg hcandidates, hupstream, ok_bind]
  rfl

/-- What was recorded is an outcome of the faults. -/
theorem outcome_of_maybeMutateTopology {g command : Frame} {bytes : Bytes} {localSlots : Frame}
    (hbytes : parseFrame bytes = .ok g) (hcurrent : Redirection.parse g = some current)
    {source : Draw.Source} {commandIndex : UInt64} {commandHash : String}
    {mutation : TopologyMutation}
    (h : maybeMutateTopology { lib with chacha20 := fun _ => source } config commandIndex
      commandHash command (some bytes) localSlots = .ok (some (some mutation))) :
    config.topologyRedirect = none ∧
      (drawTopology config.topologyProbability (redirectionTargets localSlots) command
        (some current)).Outcome (some mutation) := by
  by_cases hoff : config.topologyProbability.le .zero = true ∨
      config.topologyRedirect.isSome = true
  · rw [maybeMutateTopology, if_pos hoff] at h
    cases h
  · have hpositive : config.topologyProbability.le .zero = false := by
      simpa using (not_or.mp hoff).1
    have hlegacy : config.topologyRedirect = none := by
      simpa using (not_or.mp hoff).2
    by_cases hcandidates : redirectionTargets localSlots = []
    · simp only [maybeMutateTopology, if_neg hoff, if_pos hcandidates] at h
      cases h
    · rw [maybeMutateTopology_redirection lib hbytes hcurrent hpositive hlegacy hcandidates] at h
      have hrun := Option.some.inj (congrArg some (Except.ok.inj h))
      exact ⟨hlegacy, Draw.outcome_of_runFrom hrun⟩

/-- Where the redirection names a primary by an IPv6 address, the fault may name it again. -/
theorem Listeners.not_alwaysNamesAnother (h : Listeners listen slots targets mapped)
    (hnames : NamesPrimary config listen mapped current) (lib : Externals) (commandIndex : UInt64)
    (commandHash : String) (command : Frame) {g : Frame} {bytes : Bytes}
    (hbytes : parseFrame bytes = .ok g) (hcurrent : Redirection.parse g = some current)
    {localSlots : Frame}
    (hslots : (Topology.cluster targets mapped).localSlotsResponse = some localSlots) :
    ¬ AlwaysNamesAnother lib config commandIndex commandHash command bytes localSlots current := by
  intro hanother
  obtain rfl := Option.some.inj hslots
  have hlisted : redirectionTargets (.array (some (mapped.map LocalSlotRange.toRespFrame))) ≠
      [] := by
    obtain ⟨range, hrange, -⟩ := hnames.primary
    rw [h.candidates]
    exact List.ne_nil_of_mem (List.mem_map_of_mem hrange)
  have hslot : InRange current.slot := inRange_of_parse hcurrent
  obtain ⟨out, hout, hrecorded, hsame⟩ := h.exists_same lib hnames hslot
  obtain ⟨source, hrun⟩ := Draw.outcome_iff_run.mp
    (outcome_drawTopology_iff.mpr ⟨out, hout, hrecorded, rfl⟩)
  have hmutation := maybeMutateTopology_redirection lib hbytes hcurrent
    (F64.not_le_of_lt hnames.drawn) hnames.legacy hlisted source commandIndex commandHash command
  rw [h.candidates, hrun] at hmutation
  exact hsame (hanother source _ hmutation)

/-- A legacy wrong-server fault of a normalized redirection names another node, except where the
fault may apply and the redirection names a primary by an IPv6 address. -/
theorem wrongServer_namesAnother_iff (lib : Externals) (config : EvilConfig)
    (commandIndex : UInt64) (commandHash : String) (command : Frame)
    {slots mapped : List LocalSlotRange} {listen : SocketAddr} {targets : List ProxyTarget}
    (hmap : mapClusterSlots slots listen = some (.ok (.cluster targets mapped))) {localSlots : Frame}
    (hslots : (Topology.cluster targets mapped).localSlotsResponse = some localSlots) {f g : Frame}
    (hnormal : normalizeRedirection lib f (Topology.cluster targets mapped).localRedirectionMap =
      some g) {bytes : Bytes} (hbytes : parseFrame bytes = .ok g) {current : Redirection}
    (hcurrent : Redirection.parse g = some current) :
    AlwaysNamesAnother lib config commandIndex commandHash command bytes localSlots current ↔
      ¬ NamesPrimary config listen mapped current := by
  have hlisteners := listeners_of_mapClusterSlots hmap
  constructor
  · intro hanother hnames
    exact hlisteners.not_alwaysNamesAnother hnames lib commandIndex commandHash command hbytes
      hcurrent hslots hanother
  · intro hsafe source mutation hmutation
    obtain rfl := Option.some.inj hslots
    obtain ⟨node, hnode, hserver⟩ := hlisteners.exists_node hnormal hcurrent
    obtain ⟨hlegacy, houtcome⟩ := outcome_of_maybeMutateTopology hbytes hcurrent hmutation
    rw [hlisteners.candidates, outcome_drawTopology_iff] at houtcome
    obtain ⟨out, hout, -, rfl⟩ := houtcome
    have hfault := hout.of_all (all_applyRedirectionMutations _ _ _)
    exact hlisteners.namesAnother hsafe hlegacy hnode hserver (inRange_of_parse hcurrent) hfault

end

/-! ## One primary under an IPv6 address -/

/-- An address with colons to listen on. -/
def ipv6Listen : SocketAddr where
  ip := .v6 #v[0, 0, 0, 0, 0, 0, 0, 1]
  port := 7000

/-- A cluster of one primary. -/
def onePrimary : List LocalSlotRange :=
  [{ start := 0, stop := 16383, primary := loopbackNode "a" 1 none 0, replicas := [] }]

/-- The same cluster with its listener. -/
def mappedPrimary : List LocalSlotRange :=
  onePrimary.map (LocalSlotRange.relocate fun _ => ipv6Listen)

/-- The listener of the primary. -/
def primaryTarget : ProxyTarget where
  upstream := .tcp { host := "a", port := 1 }
  listen := .tcp ipv6Listen.endpoint

theorem mapClusterSlots_onePrimary : mapClusterSlots onePrimary ipv6Listen =
    some (.ok (.cluster [primaryTarget] mappedPrimary)) :=
  rfl

/-- The redirection of the upstream to its primary becomes one to the listener. -/
theorem normalizeRedirection_onePrimary :
    normalizeRedirection default (.simpleError "MOVED 1 a:1")
      (Topology.cluster [primaryTarget] mappedPrimary).localRedirectionMap =
        some (.simpleError "MOVED 1 [::1]:7000") := by
  decide +kernel

theorem parseFrame_onePrimary : parseFrame (asBytes "-MOVED 1 [::1]:7000\r\n") =
    .ok (.simpleError "MOVED 1 [::1]:7000") := by
  decide +kernel

theorem parse_onePrimary : Redirection.parse (.simpleError "MOVED 1 [::1]:7000") =
    some { kind := .moved, slot := 1, server := "[::1]:7000" } := by
  decide +kernel

/-- The replacement of the only primary may be this primary. -/
theorem wrongServer_namesSame :
    ¬ ∀ (lib : Externals) (config : EvilConfig) (commandIndex : UInt64) (commandHash : String)
      (command : Frame) (slots mapped : List LocalSlotRange) (listen : SocketAddr)
      (targets : List ProxyTarget) (localSlots f g : Frame) (bytes : Bytes) (current : Redirection),
      mapClusterSlots slots listen = some (.ok (.cluster targets mapped)) →
      (Topology.cluster targets mapped).localSlotsResponse = some localSlots →
      normalizeRedirection lib f (Topology.cluster targets mapped).localRedirectionMap = some g →
      parseFrame bytes = .ok g → Redirection.parse g = some current →
      AlwaysNamesAnother lib config commandIndex commandHash command bytes localSlots current := by
  intro h
  have hnames : NamesPrimary { topologyProbability := .hundred } ipv6Listen mappedPrimary
      { kind := .moved, slot := 1, server := "[::1]:7000" } := by
    refine ⟨by decide, rfl, ⟨_, rfl⟩, ⟨_, List.mem_cons_self, ?_⟩⟩
    decide +kernel
  have hlisteners := listeners_of_mapClusterSlots mapClusterSlots_onePrimary
  apply hlisteners.not_alwaysNamesAnother hnames default 0 "" (.inline []) parseFrame_onePrimary
    parse_onePrimary rfl
  exact h default _ 0 "" (.inline []) _ _ _ _ _ _ _ _ _ mapClusterSlots_onePrimary rfl
    normalizeRedirection_onePrimary parseFrame_onePrimary parse_onePrimary

/-- The only primary, with the probability of a hundred. -/
theorem wrongServer_namesAnother_iff_onePrimary :
    ∃ localSlots, (Topology.cluster [primaryTarget] mappedPrimary).localSlotsResponse =
        some localSlots ∧
      (AlwaysNamesAnother default { topologyProbability := .hundred } 0 "" (.inline [])
          (asBytes "-MOVED 1 [::1]:7000\r\n") localSlots
          { kind := .moved, slot := 1, server := "[::1]:7000" } ↔
        ¬ NamesPrimary { topologyProbability := .hundred } ipv6Listen mappedPrimary
          { kind := .moved, slot := 1, server := "[::1]:7000" }) :=
  ⟨_, rfl, wrongServer_namesAnother_iff default { topologyProbability := .hundred } 0 "" (.inline [])
    mapClusterSlots_onePrimary rfl normalizeRedirection_onePrimary parseFrame_onePrimary
    parse_onePrimary⟩

end EvilResp
