import EvilResp.Externals
import EvilResp.Config.Options

/-!
# Endpoints

TCP endpoints as host and port, and the textual form of IPv6 addresses.

Main results:

- Theorem {lit}`TcpEndpoint.parse_host_ne_empty`: an accepted endpoint names a host.
-/

namespace EvilResp

open Library

/-! ## IPv6 addresses -/

namespace Ipv6

/-- A reader that stops before the first character it does not take. -/
abbrev Reader (α : Type) := List Char → Option (α × List Char)

/-- A hexadecimal digit of either case. -/
def isHexDigit (c : Char) : Bool :=
  c.isDigit ∨ ('a' ≤ c ∧ c ≤ 'f') ∨ ('A' ≤ c ∧ c ≤ 'F')

/-- One group: one to four hexadecimal digits. -/
def readGroup : Reader Unit := fun input =>
  let (digits, rest) := input.span isHexDigit
  if digits = [] ∨ 4 < digits.length then none else some ((), rest)

/-- One decimal byte without leading zeros. -/
def readByte : Reader Unit := fun input =>
  let (digits, rest) := input.span Char.isDigit
  if digits = [] ∨ 3 < digits.length then none
  else if digits.head? = some '0' ∧ digits.length ≠ 1 then none
  else if 255 < Nat.ofDigitChars 10 digits 0 then none
  else some ((), rest)

/-- A separator before every item but the first. -/
def readSeparated (separator : Char) (index : Nat) (read : Reader Unit) : Reader Unit :=
  fun input =>
    if index = 0 then read input
    else
      match input with
      | c :: rest => if c = separator then read rest else none
      | [] => none

/-- Four numbers below 256 with dots between them. -/
def readIpv4 : Reader Unit := fun input => do
  let (_, input) ← readSeparated '.' 0 readByte input
  let (_, input) ← readSeparated '.' 1 readByte input
  let (_, input) ← readSeparated '.' 2 readByte input
  readSeparated '.' 3 readByte input

/-- Read groups until one is missing or the limit is reached.  Returns how many
groups were filled and whether an embedded IPv4 address filled the last two. -/
def readGroups (limit : Nat) : Nat → Nat → List Char → (Nat × Bool) × List Char
  | 0, index, input => ((index, false), input)
  | fuel + 1, index, input =>
      match (if index + 1 < limit then readSeparated ':' index readIpv4 input else none) with
      | some (_, rest) => ((index + 2, true), rest)
      | none =>
          match readSeparated ':' index readGroup input with
          | some (_, rest) => readGroups limit fuel (index + 1) rest
          | none => ((index, false), input)

/-- Whether a text is an IPv6 address. -/
def isAddress (s : String) : Bool :=
  let ((headSize, embedded), rest) := readGroups 8 8 0 s.toList
  if headSize = 8 then rest = []
  else if embedded then false
  else
    match rest with
    | ':' :: ':' :: rest =>
        let limit := 8 - (headSize + 1)
        (readGroups limit limit 0 rest).2 = []
    | _ => false

end Ipv6

/-! ## TCP endpoints -/

/-- A host with a port. -/
structure TcpEndpoint where
  host : String
  port : Nat
deriving DecidableEq

namespace TcpEndpoint

/-- The form that names an endpoint; a bare IPv6 host is bracketed. -/
def connectAddr (endpoint : TcpEndpoint) : String :=
  if endpoint.host.toList.contains ':' ∧ endpoint.host.toList.head? ≠ some '[' then
    s!"[{endpoint.host}]:{endpoint.port}"
  else s!"{endpoint.host}:{endpoint.port}"

/-- Read a port of 16 bits. -/
def parsePort (value : String) : AppResult Nat :=
  match parseUnsigned 16 value with
  | .ok port => .ok port
  | .error error => .error (.proxy ("invalid endpoint port: " ++ error.message))

/-- Split before the first occurrence of two characters in a row. -/
def splitOnceTwo (a b : Char) : List Char → Option (List Char × List Char)
  | c :: d :: rest =>
      if c = a ∧ d = b then some ([], rest)
      else (splitOnceTwo a b (d :: rest)).map fun (before, after) => (c :: before, after)
  | _ => none

/-- Split at the last occurrence of a character. -/
def rsplitOnce (c : Char) (s : List Char) : Option (List Char × List Char) :=
  let (after, before) := s.reverse.span (· ≠ c)
  match before with
  | _ :: before => some (before.reverse, after.reverse)
  | [] => none

/-- The error for what is no endpoint. -/
def notHostPort (lib : Externals) (value : String) : AppError :=
  .proxy ("endpoint " ++ lib.debug value ++ " must be host:port")

/-- The host and port of a text, before the host is checked. -/
def split (lib : Externals) (value : String) : AppResult (String × Nat) :=
  let parts :=
    match value.toList with
    | '[' :: rest => splitOnceTwo ']' ':' rest
    | chars => rsplitOnce ':' chars
  match parts with
  | none => .error (notHostPort lib value)
  | some (host, port) => (parsePort (String.ofList port)).map fun port => (String.ofList host, port)

/-- Read an endpoint: a host in brackets or without colons, and a port. -/
def parse (lib : Externals) (value : String) : AppResult TcpEndpoint := do
  let (host, port) ← split lib value
  if host.isEmpty then .error (.proxy "endpoint host must not be empty")
  else .ok { host, port }

/-- An accepted endpoint names a host. -/
theorem parse_host_ne_empty {lib : Externals} {value : String} {endpoint : TcpEndpoint}
    (h : parse lib value = .ok endpoint) : endpoint.host.isEmpty = false := by
  simp only [parse, bind_eq_ok_iff, Prod.exists] at h
  obtain ⟨host, port, -, h⟩ := h
  by_cases hempty : host.isEmpty = true
  · rw [if_pos hempty] at h
    cases h
  · rw [if_neg hempty] at h
    cases h
    simpa using hempty

end TcpEndpoint

end EvilResp
