import EvilResp.Library.Fields
import EvilResp.Net
import EvilResp.Resp.Parser

/-!
# Redirections to local listeners

Upstream redirections name upstream servers.  The redirection map sends every server
it knows to a local listener, by its address, by its port where the port alone
decides, or by its node ID.

Main results:

- Theorem {lit}`ClusterRedirectionMap.rewriteServer_mem`: a rewritten server is one of
  the listeners of the map.
- Theorem {lit}`normalizeRedirection_frame`: a normalized redirection names a listener,
  or is the error that there is none.
-/

namespace EvilResp

open Library
open EvilResp.Resp

/-! ## The map -/

/-- The local listeners, by the address, the port and the ID of their nodes. -/
structure ClusterRedirectionMap where
  localByUpstream : List (String × String) := []
  localByUniqueUpstreamPort : List (Nat × String) := []
  localByNodeId : List (Bytes × String) := []

namespace ClusterRedirectionMap

/-- Record a listener for a port; two different listeners leave the port without one. -/
def insertPort (ports : List (Nat × Option String)) (port : Nat) (listener : String) :
    List (Nat × Option String) :=
  match ports.lookup port with
  | none => insertKey port (some listener) ports
  | some existing =>
      insertKey port (if existing = some listener then existing else none) ports

/-- The map of nodes without IDs. -/
def fromMappings (mappings : List (TcpEndpoint × String)) : ClusterRedirectionMap :=
  let ports := mappings.foldl (fun ports mapping =>
    insertPort ports mapping.1.port mapping.2) []
  {
    localByUpstream := mappings.foldl (fun entries mapping =>
      insertKey mapping.1.connectAddr mapping.2 entries) []
    localByUniqueUpstreamPort := ports.filterMap fun (port, listener) =>
      listener.map fun listener => (port, listener) }

/-- The listener for a server: by its address, or by a port that decides alone. -/
def rewriteServer (lib : Externals) (map : ClusterRedirectionMap) (server : String) :
    Option String :=
  match TcpEndpoint.parse lib server with
  | .ok endpoint =>
      match map.localByUpstream.lookup endpoint.connectAddr with
      | some listener => some listener
      | none => map.localByUniqueUpstreamPort.lookup endpoint.port
  | .error _ => do
      let (_, port) ← TcpEndpoint.rsplitOnce ':' server.toList
      let port ← (parseUnsigned 16 (String.ofList port)).toOption
      map.localByUniqueUpstreamPort.lookup port

/-- The listener of a node, by its ID first and by its address else. -/
def rewriteNode (lib : Externals) (map : ClusterRedirectionMap) (nodeId : Option Bytes)
    (server : String) : Option String :=
  match nodeId.bind (map.localByNodeId.lookup ·) with
  | some listener => some listener
  | none => map.rewriteServer lib server

/-! ## Maps from mappings -/

/-- The listener of an address is the one of a mapping with that address. -/
theorem fromMappings_upstream {mappings : List (TcpEndpoint × String)} {key listener : String}
    (h : (fromMappings mappings).localByUpstream.lookup key = some listener) :
    ∃ mapping ∈ mappings, mapping.1.connectAddr = key ∧ mapping.2 = listener := by
  have hfold : (mappings.foldl (insertItem (fun mapping => some mapping.1.connectAddr) Prod.snd)
      []).lookup key = some listener := h
  rcases lookup_insertItem hfold with ⟨mapping, hmem, hkey, hlistener⟩ | hnil
  · exact ⟨mapping, hmem, Option.some.inj hkey, hlistener⟩
  · cases hnil

/-- Where the mappings of an address agree, the map lists their listener. -/
theorem fromMappings_upstream_of_mem {mappings : List (TcpEndpoint × String)}
    {mapping : TcpEndpoint × String} (hmem : mapping ∈ mappings)
    (hsame : ∀ other ∈ mappings, other.1.connectAddr = mapping.1.connectAddr →
      other.2 = mapping.2) :
    (fromMappings mappings).localByUpstream.lookup mapping.1.connectAddr = some mapping.2 := by
  have hfold : (mappings.foldl (insertItem (fun mapping => some mapping.1.connectAddr) Prod.snd)
      []).lookup mapping.1.connectAddr = some mapping.2 :=
    lookup_insertItem_of_mem hmem rfl
      fun other hother hkey => hsame other hother (Option.some.inj hkey)
  exact hfold

/-- The listeners of ports after the mappings seen: every port is listed, and a port that
keeps a listener shares it with all of its mappings. -/
structure PortsOf (seen : List (TcpEndpoint × String)) (ports : List (Nat × Option String)) :
    Prop where
  listed : ∀ mapping ∈ seen, (ports.lookup mapping.1.port).isSome
  known : ∀ entry ∈ ports, ∃ mapping ∈ seen, mapping.1.port = entry.1
  unique : ∀ port listener, (port, some listener) ∈ ports →
    ∀ mapping ∈ seen, mapping.1.port = port → mapping.2 = listener

/-- One more mapping keeps the ports in line. -/
theorem PortsOf.insertPort {seen : List (TcpEndpoint × String)}
    {ports : List (Nat × Option String)} (h : PortsOf seen ports)
    (mapping : TcpEndpoint × String) :
    PortsOf (seen ++ [mapping])
      (ClusterRedirectionMap.insertPort ports mapping.1.port mapping.2) := by
  -- either way the port is listed, with a listener only if all its mappings share it
  have hkeep : ∀ value,
      (∀ listener, value = some listener → mapping.2 = listener ∧
        ∀ other ∈ seen, other.1.port = mapping.1.port → other.2 = listener) →
      PortsOf (seen ++ [mapping]) (insertKey mapping.1.port value ports) := by
    intro value hvalue
    constructor
    · intro other hother
      by_cases hport : other.1.port = mapping.1.port
      · rw [hport, lookup_insertKey_self]
        rfl
      · rw [lookup_insertKey_ne hport]
        rcases List.mem_append.mp hother with hother | hother
        · exact h.listed other hother
        · exact absurd (List.mem_singleton.mp hother ▸ rfl) hport
    · intro entry hentry
      rcases mem_insertKey hentry with rfl | ⟨hentry, -⟩
      · exact ⟨mapping, List.mem_append_right _ List.mem_cons_self, rfl⟩
      · rcases h.known entry hentry with ⟨other, hother, hport⟩
        exact ⟨other, List.mem_append_left _ hother, hport⟩
    · intro port listener hentry other hother hport
      rcases mem_insertKey hentry with heq | ⟨hentry, hne⟩
      · cases heq
        rcases hvalue listener rfl with ⟨hself, hseen⟩
        rcases List.mem_append.mp hother with hother | hother
        · exact hseen other hother hport
        · exact List.mem_singleton.mp hother ▸ hself
      · rcases List.mem_append.mp hother with hother | hother
        · exact h.unique port listener hentry other hother hport
        · exact absurd (List.mem_singleton.mp hother ▸ hport).symm hne
  unfold ClusterRedirectionMap.insertPort
  split
  · rename_i hnone
    refine hkeep _ fun listener hlistener => ?_
    refine ⟨Option.some.inj hlistener, fun other hother hport => ?_⟩
    have hlisted := h.listed other hother
    simp [hport, hnone] at hlisted
  · rename_i existing hexisting
    refine hkeep _ fun listener hlistener => ?_
    by_cases hsame : existing = some mapping.2
    · rw [if_pos hsame, hsame] at hlistener
      have hmem := mem_of_lookup hexisting
      rw [hsame] at hmem
      cases hlistener
      exact ⟨rfl, h.unique _ _ hmem⟩
    · rw [if_neg hsame] at hlistener
      cases hlistener

/-- So do all mappings. -/
theorem portsOf_foldl {seen mappings : List (TcpEndpoint × String)}
    {ports : List (Nat × Option String)} (h : PortsOf seen ports) :
    PortsOf (seen ++ mappings) (mappings.foldl (fun ports mapping =>
      ClusterRedirectionMap.insertPort ports mapping.1.port mapping.2) ports) := by
  induction mappings generalizing seen ports with
  | nil => rwa [List.append_nil]
  | cons mapping mappings ih =>
      rw [List.append_cons]
      exact ih (h.insertPort mapping)

/-- A port that decides alone belongs to a mapping, and all its mappings have the
listener. -/
theorem fromMappings_port {mappings : List (TcpEndpoint × String)} {port : Nat}
    {listener : String}
    (h : (fromMappings mappings).localByUniqueUpstreamPort.lookup port = some listener) :
    (∃ mapping ∈ mappings, mapping.1.port = port) ∧
      ∀ mapping ∈ mappings, mapping.1.port = port → mapping.2 = listener := by
  have hports : PortsOf [] [] := ⟨by simp, by simp, by simp⟩
  have hall : PortsOf ([] ++ mappings) _ := portsOf_foldl hports
  rw [List.nil_append] at hall
  have hmem := mem_of_lookup h
  simp only [fromMappings, List.mem_filterMap, Prod.exists] at hmem
  rcases hmem with ⟨found, value, hentry, hvalue⟩
  cases value with
  | none => cases hvalue
  | some value =>
      cases hvalue
      exact ⟨hall.known _ hentry, hall.unique _ _ hentry⟩

/-- Whether a text is one of the listeners of the map. -/
def HasListener (map : ClusterRedirectionMap) (listener : String) : Prop :=
  listener ∈ map.localByUpstream.map Prod.snd ∨
    listener ∈ map.localByUniqueUpstreamPort.map Prod.snd ∨
    listener ∈ map.localByNodeId.map Prod.snd

/-- What is found by address is a listener. -/
theorem hasListener_of_upstream {map : ClusterRedirectionMap} {key listener : String}
    (h : map.localByUpstream.lookup key = some listener) : map.HasListener listener :=
  .inl (List.mem_map.mpr ⟨_, mem_of_lookup h, rfl⟩)

/-- What is found by port is a listener. -/
theorem hasListener_of_port {map : ClusterRedirectionMap} {port : Nat} {listener : String}
    (h : map.localByUniqueUpstreamPort.lookup port = some listener) : map.HasListener listener :=
  .inr (.inl (List.mem_map.mpr ⟨_, mem_of_lookup h, rfl⟩))

/-- A rewritten server is one of the listeners of the map. -/
theorem rewriteServer_mem {lib : Externals} {map : ClusterRedirectionMap}
    {server listener : String} (h : map.rewriteServer lib server = some listener) :
    map.HasListener listener := by
  unfold rewriteServer at h
  split at h
  · split at h
    · rename_i found hfound
      cases h
      exact hasListener_of_upstream hfound
    · exact hasListener_of_port h
  · simp only [Option.bind_eq_bind, Option.bind_eq_some_iff] at h
    rcases h with ⟨_, -, port, -, hlookup⟩
    exact hasListener_of_port hlookup

end ClusterRedirectionMap

/-! ## Redirections -/

/-- The two kinds of redirections. -/
inductive RedirectionKind where
  | moved
  | ask
deriving DecidableEq

/-- The word of a kind. -/
def RedirectionKind.asStr : RedirectionKind → String
  | moved => "MOVED"
  | ask => "ASK"

/-- A redirection to a server, for a slot. -/
structure Redirection where
  kind : RedirectionKind
  slot : Int
  server : String
deriving DecidableEq

namespace Redirection

/-- The line of a redirection. -/
def display (redirection : Redirection) : String :=
  s!"{redirection.kind.asStr} {redirection.slot} {redirection.server}"

/-- A redirection as an error reply. -/
def toFrame (redirection : Redirection) : Frame :=
  .simpleError redirection.display

/-- The redirection in the error type of another frame. -/
def toMatchingFrame (redirection : Redirection) : Frame → Frame
  | .bulkError _ => .bulkError (asBytes redirection.display)
  | _ => redirection.toFrame

/-- Read the word of a kind. -/
def parseKind (code : String) : Option RedirectionKind :=
  if eqIgnoreAsciiCase code "MOVED" then some .moved
  else if eqIgnoreAsciiCase code "ASK" ∨ eqIgnoreAsciiCase code "ASKING" then some .ask
  else none

/-- The text of an error frame. -/
def errorText : Frame → Option String
  | .simpleError value => some value
  | .bulkError bytes => (fromUtf8 bytes).toOption
  | _ => none

/-- Read a redirection from an error reply: three words, the second a number. -/
def parse (f : Frame) : Option Redirection := do
  let value ← errorText f
  match splitWhitespace value with
  | code :: slot :: server :: _ => do
      let kind ← parseKind code
      let slot ← (parseInteger (-2 ^ 31) (2 ^ 31 - 1) slot).toOption
      some { kind, slot, server }
  | _ => none

end Redirection

/-- The reply in place of a redirection to an unknown server. -/
def noLocalListener : Frame :=
  .simpleError "ERR evilresp has no local listener for redirection target"

/-- Rewrite a redirection, or answer that its target has no listener.  Replies that
are no redirection give {lit}`none` and pass through. -/
def normalizeRedirection (lib : Externals) (f : Frame) (map : ClusterRedirectionMap) :
    Option Frame := do
  let redirection ← Redirection.parse f
  match map.rewriteServer lib redirection.server with
  | none => some noLocalListener
  | some server => some ({ redirection with server }.toMatchingFrame f)

/-- A normalized redirection keeps its kind and slot and names a listener, or is the
error that there is none. -/
theorem normalizeRedirection_frame {lib : Externals} {f g : Frame} {map : ClusterRedirectionMap}
    (h : normalizeRedirection lib f map = some g) :
    g = noLocalListener ∨ ∃ redirection server, Redirection.parse f = some redirection ∧
      map.HasListener server ∧ g = { redirection with server }.toMatchingFrame f := by
  simp only [normalizeRedirection, Option.bind_eq_bind, Option.bind_eq_some_iff] at h
  rcases h with ⟨redirection, hparse, h⟩
  split at h
  · exact .inl (Option.some.inj h).symm
  · rename_i server hserver
    exact .inr ⟨redirection, server, hparse, ClusterRedirectionMap.rewriteServer_mem hserver,
      (Option.some.inj h).symm⟩

end EvilResp
