import EvilResp.Library.Fields
import EvilResp.Net

/-!
# Socket addresses

The addresses of local listeners: an IP address with a port.  An IP address has one text,
and an endpoint built from it is read back as it was written.

Main results:

- Theorem {lit}`TcpEndpoint.parse_connectAddr`: an endpoint without brackets in its host
  parses back from its own name.
- Theorem {lit}`SocketAddr.parse_text`: so does every socket address.
-/

namespace EvilResp

open Library

/-! ## IP addresses -/

/-- An address of either version. -/
inductive IpAddr where
  | v4 (octets : Vector UInt8 4)
  | v6 (segments : Vector UInt16 8)
deriving DecidableEq

namespace Ipv4

/-- Four numbers with dots between them. -/
def display (octets : List UInt8) : List Char :=
  List.intercalate ['.'] (octets.map fun octet => octet.toNat.repr.toList)

end Ipv4

namespace Ipv6

/-- A run of zero segments. -/
structure Span where
  start : Nat := 0
  len : Nat := 0

/-- The longest run so far and the one the last segment belongs to. -/
def extendRuns (runs : Span × Span) (segment : UInt16 × Nat) : Span × Span :=
  let (longest, current) := runs
  if segment.1 = 0 then
    let current : Span :=
      { start := if current.len = 0 then segment.2 else current.start
        len := current.len + 1 }
    (if longest.len < current.len then current else longest, current)
  else (longest, {})

/-- The longest run of zero segments, the first of several. -/
def zeroes (segments : List UInt16) : Span :=
  (segments.zipIdx.foldl extendRuns ({}, {})).1

/-- Segments in hexadecimal with colons between them. -/
def fmtSubslice (chunk : List UInt16) : List Char :=
  List.intercalate [':'] (chunk.map fun segment => Nat.toDigits 16 segment.toNat)

/-- The text of an address: an IPv4 address inside it in its own form, and the longest
run of two or more zero segments left out. -/
def display (segments : List UInt16) : List Char :=
  match segments with
  | [0, 0, 0, 0, 0, 0xffff, high, low] =>
      "::ffff:".toList ++ Ipv4.display
        [(high >>> 8).toUInt8, high.toUInt8, (low >>> 8).toUInt8, low.toUInt8]
  | _ =>
      if 1 < (zeroes segments).len then
        fmtSubslice (segments.take (zeroes segments).start) ++ "::".toList ++
          fmtSubslice (segments.drop ((zeroes segments).start + (zeroes segments).len))
      else fmtSubslice segments

end Ipv6

namespace IpAddr

/-- An address as it is written. -/
def display : IpAddr → List Char
  | v4 octets => Ipv4.display octets.toList
  | v6 segments => Ipv6.display segments.toList

/-- A character of an address. -/
def IsAddressChar (c : Char) : Prop :=
  Ipv6.isHexDigit c = true ∨ c = ':' ∨ c = '.'

/-- What is joined comes from the parts or the separator. -/
theorem mem_intercalate {α : Type} {sep : List α} {parts : List (List α)} {a : α}
    (h : a ∈ List.intercalate sep parts) : a ∈ sep ∨ ∃ part ∈ parts, a ∈ part := by
  induction parts with
  | nil => cases h
  | cons part parts ih =>
      by_cases hparts : parts = []
      · rw [hparts, List.intercalate_singleton] at h
        exact .inr ⟨part, List.mem_cons_self, h⟩
      · rw [List.intercalate_cons_of_ne_nil hparts] at h
        simp only [List.mem_append] at h
        rcases h with (h | h) | h
        · exact .inr ⟨part, List.mem_cons_self, h⟩
        · exact .inl h
        · rcases ih h with h | ⟨other, hother, h⟩
          · exact .inl h
          · exact .inr ⟨other, List.mem_cons_of_mem _ hother, h⟩

/-- Hexadecimal digits are such. -/
theorem isHexDigit_digitChar {n : Nat} (h : n < 16) : Ipv6.isHexDigit n.digitChar = true := by
  interval_cases n <;> decide

/-- A number is written in hexadecimal digits. -/
theorem isHexDigit_of_mem_toDigits {n : Nat} {c : Char} (h : c ∈ Nat.toDigits 16 n) :
    Ipv6.isHexDigit c = true := by
  induction n using Nat.strong_induction_on with
  | _ n ih =>
      rw [Nat.toDigits_eq_if (by omega)] at h
      by_cases hn : n < 16
      · simp only [hn, if_true, List.mem_singleton] at h
        exact h ▸ isHexDigit_digitChar hn
      · rw [if_neg hn, List.mem_append, List.mem_singleton] at h
        rcases h with h | h
        · exact ih _ (by omega) h
        · exact h ▸ isHexDigit_digitChar (by omega)

/-- Four numbers are written in characters of addresses. -/
theorem isAddressChar_ipv4 {octets : List UInt8} {c : Char} (h : c ∈ Ipv4.display octets) :
    IsAddressChar c := by
  rcases mem_intercalate h with h | ⟨part, hpart, h⟩
  · exact .inr (.inr (List.mem_singleton.mp h))
  · rcases List.mem_map.mp hpart with ⟨octet, -, rfl⟩
    have hdigit := isDigit_of_mem_repr h
    exact .inl (by simp [Ipv6.isHexDigit, hdigit])

/-- So are segments. -/
theorem isAddressChar_fmtSubslice {chunk : List UInt16} {c : Char}
    (h : c ∈ Ipv6.fmtSubslice chunk) : IsAddressChar c := by
  rcases mem_intercalate h with h | ⟨part, hpart, h⟩
  · exact .inr (.inl (List.mem_singleton.mp h))
  · rcases List.mem_map.mp hpart with ⟨segment, -, rfl⟩
    exact .inl (isHexDigit_of_mem_toDigits h)

/-- So are all addresses of eight segments. -/
theorem isAddressChar_ipv6 {segments : List UInt16} {c : Char}
    (h : c ∈ Ipv6.display segments) : IsAddressChar c := by
  unfold Ipv6.display at h
  split at h
  · rcases List.mem_append.mp h with h | h
    · have hmapped : ∀ c ∈ "::ffff:".toList, Ipv6.isHexDigit c = true ∨ c = ':' :=
        forall_mem_of_all (by decide)
      rcases hmapped c h with h | h
      · exact .inl h
      · exact .inr (.inl h)
    · exact isAddressChar_ipv4 h
  · split at h
    · simp only [List.mem_append] at h
      rcases h with (h | h) | h
      · exact isAddressChar_fmtSubslice h
      · have hcolons : ∀ c ∈ "::".toList, c = ':' := forall_mem_of_all (by decide)
        exact .inr (.inl (hcolons c h))
      · exact isAddressChar_fmtSubslice h
    · exact isAddressChar_fmtSubslice h

/-- The text of an address has digits, colons and dots. -/
theorem isAddressChar_display {ip : IpAddr} {c : Char} (h : c ∈ ip.display) :
    IsAddressChar c := by
  cases ip with
  | v4 octets => exact isAddressChar_ipv4 h
  | v6 segments => exact isAddressChar_ipv6 h

/-- Joining keeps what is not empty. -/
theorem intercalate_ne_nil {α : Type} {sep part : List α} {parts : List (List α)}
    (h : part ≠ []) : List.intercalate sep (part :: parts) ≠ [] := by
  cases parts with
  | nil => simpa using h
  | cons other parts => simp [h]

/-- No address is written as nothing. -/
theorem display_ne_nil (ip : IpAddr) : ip.display ≠ [] := by
  cases ip with
  | v4 octets =>
      rcases octets with ⟨⟨octets⟩, hsize⟩
      match octets, hsize with
      | octet :: octets, _ =>
          have hfirst : octet.toNat.repr.toList ≠ [] := by
            rw [Nat.toList_repr]
            exact Nat.toDigits_ne_nil
          exact intercalate_ne_nil hfirst
  | v6 segments =>
      rcases segments with ⟨⟨segments⟩, hsize⟩
      match segments, hsize with
      | segment :: segments, _ =>
          have hall : Ipv6.fmtSubslice (segment :: segments) ≠ [] :=
            intercalate_ne_nil Nat.toDigits_ne_nil
          change Ipv6.display (segment :: segments) ≠ []
          unfold Ipv6.display
          split
          · simp
          · split
            · simp
            · exact hall

end IpAddr

/-! ## Reading an endpoint back -/

namespace TcpEndpoint

/-- A host that an endpoint text can carry unchanged. -/
structure PlainHost (host : String) : Prop where
  nonempty : host.toList ≠ []
  open_free : '[' ∉ host.toList
  close_free : ']' ∉ host.toList

/-- A port is read back. -/
theorem parsePort_repr {port : Nat} (h : port < 2 ^ 16) : parsePort port.repr = .ok port := by
  have hparse : parseUnsigned 16 port.repr = .ok port := by
    rw [parseUnsigned, parseInteger_repr (by omega) (by omega)]
    rfl
  rw [parsePort, hparse]

/-- The port is behind the last colon. -/
theorem rsplitOnce_repr (host : List Char) (port : Nat) :
    rsplitOnce ':' (host ++ ':' :: port.repr.toList) = some (host, port.repr.toList) := by
  have hdigits : ∀ c ∈ port.repr.toList.reverse, decide (c ≠ ':') = true := by
    intro c hc
    have hdigit := isDigit_of_mem_repr (List.mem_reverse.mp hc)
    exact decide_eq_true fun hcolon => absurd (hcolon ▸ hdigit) (by decide)
  have hreverse : (host ++ ':' :: port.repr.toList).reverse =
      port.repr.toList.reverse ++ ':' :: host.reverse := by
    simp
  have hafter : ((':' : Char) :: host.reverse).takeWhile (fun c => decide (c ≠ ':')) = [] := by
    simp
  have hbefore : ((':' : Char) :: host.reverse).dropWhile (fun c => decide (c ≠ ':')) =
      ':' :: host.reverse := by
    simp
  rw [rsplitOnce, hreverse, List.span_eq_takeWhile_dropWhile, List.takeWhile_append_of_pos hdigits,
    List.dropWhile_append_of_pos hdigits, hafter, hbefore]
  simp

/-- A bracketed host ends at its bracket. -/
theorem splitOnceTwo_append {host : List Char} (h : ']' ∉ host) (port : List Char) :
    splitOnceTwo ']' ':' (host ++ ']' :: ':' :: port) = some (host, port) := by
  induction host with
  | nil => simp [splitOnceTwo]
  | cons c host ih =>
      rcases not_or.mp (mt List.mem_cons.mpr h) with ⟨hne, hhost⟩
      cases host with
      | nil =>
          have hlast : splitOnceTwo ']' ':' (']' :: ':' :: port) = some ([], port) := by
            simp [splitOnceTwo]
          simp only [List.cons_append, List.nil_append, splitOnceTwo, Ne.symm hne, false_and,
            if_false]
          rfl
      | cons d host =>
          rw [List.cons_append, List.cons_append, splitOnceTwo, ← List.cons_append, ih hhost]
          simp [Ne.symm hne]

variable (lib : Externals)

/-- Where the text of an endpoint splits, its host and port are read. -/
theorem parse_of_split {value host : String} {port : Nat} (hhost : PlainHost host)
    (h : split lib value = .ok (host, port)) : parse lib value = .ok { host, port } := by
  have hempty : host.isEmpty = false := by
    by_contra hne
    have hnil : host = "" := by simpa using hne
    exact hhost.nonempty (by simp [hnil])
  simp only [parse, h]
  exact if_neg (by simp [hempty])

/-- A text without an opening bracket splits at its last colon. -/
theorem split_of_rsplitOnce {value : String} {host port : List Char}
    (hopen : value.toList.head? ≠ some '[')
    (hparts : rsplitOnce ':' value.toList = some (host, port)) :
    split lib value =
      (parsePort (String.ofList port)).map fun port => (String.ofList host, port) := by
  unfold split
  split
  · rename_i rest hrest
    exact absurd (by rw [hrest]; rfl) hopen
  · simp only [hparts]

/-- A host before the last colon. -/
theorem parse_plain {host : String} (hhost : PlainHost host) {port : Nat} (hport : port < 2 ^ 16) :
    parse lib (String.ofList (host.toList ++ ':' :: port.repr.toList)) = .ok { host, port } := by
  refine parse_of_split lib hhost ?_
  rcases List.exists_cons_of_ne_nil hhost.nonempty with ⟨c, cs, hcs⟩
  have hopen : c ≠ '[' := fun hc => hhost.open_free (hcs ▸ hc ▸ List.mem_cons_self)
  have hhead : (String.ofList (host.toList ++ ':' :: port.repr.toList)).toList.head? ≠
      some '[' := by
    simp [hcs, hopen]
  have hparts := rsplitOnce_repr host.toList port
  rw [← String.toList_ofList (l := host.toList ++ ':' :: port.repr.toList)] at hparts
  rw [split_of_rsplitOnce lib hhead hparts, String.ofList_toList, String.ofList_toList,
    parsePort_repr hport]
  rfl

/-- A host in brackets. -/
theorem parse_bracketed {host : String} (hhost : PlainHost host) {port : Nat}
    (hport : port < 2 ^ 16) :
    parse lib (String.ofList ('[' :: host.toList ++ ']' :: ':' :: port.repr.toList)) =
      .ok { host, port } := by
  refine parse_of_split lib hhost ?_
  rw [split, String.toList_ofList]
  simp only [List.cons_append, splitOnceTwo_append hhost.close_free, String.ofList_toList,
    parsePort_repr hport]
  rfl

/-- An endpoint parses back from its own name. -/
theorem parse_connectAddr {endpoint : TcpEndpoint} (hhost : PlainHost endpoint.host)
    (hport : endpoint.port < 2 ^ 16) : parse lib endpoint.connectAddr = .ok endpoint := by
  by_cases hcolon : endpoint.host.toList.contains ':' ∧ endpoint.host.toList.head? ≠ some '['
  · have htext : endpoint.connectAddr =
        String.ofList ('[' :: endpoint.host.toList ++ ']' :: ':' :: endpoint.port.repr.toList) := by
      rw [connectAddr, if_pos hcolon, ← String.toList_inj]
      simp [String.toList_append, toString, ToString.toString]
    rw [htext]
    exact parse_bracketed lib hhost hport
  · have htext : endpoint.connectAddr =
        String.ofList (endpoint.host.toList ++ ':' :: endpoint.port.repr.toList) := by
      rw [connectAddr, if_neg hcolon, ← String.toList_inj]
      simp [String.toList_append, toString, ToString.toString]
    rw [htext]
    exact parse_plain lib hhost hport

end TcpEndpoint

/-! ## Endpoints and socket addresses -/

/-- Where a server or a listener is. -/
inductive Endpoint where
  | tcp (endpoint : TcpEndpoint)
  | unix (path : String)
deriving DecidableEq

/-- An address with a port. -/
structure SocketAddr where
  ip : IpAddr
  port : Nat
deriving DecidableEq

namespace SocketAddr

/-- The endpoint of an address, with the address as its host. -/
def endpoint (addr : SocketAddr) : TcpEndpoint :=
  { host := String.ofList addr.ip.display, port := addr.port }

/-- The name of the listener at an address. -/
def text (addr : SocketAddr) : String :=
  addr.endpoint.connectAddr

/-- An address is no bracketed host. -/
theorem plainHost (addr : SocketAddr) : TcpEndpoint.PlainHost addr.endpoint.host := by
  have hchar : ∀ c ∈ addr.endpoint.host.toList, IpAddr.IsAddressChar c := by
    intro c hc
    rw [endpoint, String.toList_ofList] at hc
    exact IpAddr.isAddressChar_display hc
  constructor
  · simpa [endpoint] using addr.ip.display_ne_nil
  · intro hopen
    exact absurd (hchar _ hopen) (by unfold IpAddr.IsAddressChar; decide)
  · intro hclose
    exact absurd (hchar _ hclose) (by unfold IpAddr.IsAddressChar; decide)

/-- The name of a listener is read back as its address. -/
theorem parse_text (lib : Externals) {addr : SocketAddr} (hport : addr.port < 2 ^ 16) :
    TcpEndpoint.parse lib addr.text = .ok addr.endpoint :=
  TcpEndpoint.parse_connectAddr lib addr.plainHost hport

/-- Endpoints differ exactly if their names do. -/
theorem endpoint_eq_iff (lib : Externals) {addr other : SocketAddr} (haddr : addr.port < 2 ^ 16)
    (hother : other.port < 2 ^ 16) : addr.endpoint = other.endpoint ↔ addr.text = other.text := by
  constructor
  · intro h
    exact congrArg TcpEndpoint.connectAddr h
  · intro h
    have hparse := parse_text lib haddr
    rw [h, parse_text lib hother] at hparse
    exact (Except.ok.inj hparse).symm

end SocketAddr

end EvilResp
