import EvilResp.Library.Draw
import EvilResp.Library.Text

/-!
# Collaborators outside the source

The third-party pieces the proxy calls: the regular expression compiler, the hash
functions, the stream cipher behind its random numbers, and two tables of the
platform: the printable characters and the texts of floats.
-/

namespace EvilResp

open Library

/-- The functions of the libraries the proxy is linked with. -/
structure Externals where
  /-- Whether a character of a quoted text is shown as itself. -/
  printable : Char → Bool
  /-- The shortest text of the finite float with a bit pattern. -/
  displayF64 : Nat → String
  /-- Compile a case-insensitive regular expression into its matcher. -/
  buildRegex : String → Except String (String → Bool)
  /-- Two lower-case hexadecimal digits for each byte. -/
  hexEncode : Bytes → String
  sha256 : Bytes → Bytes
  blake3 : Bytes → String
  tlsh : Bytes → String
  /-- The outcomes of the generator seeded with a digest. -/
  chacha20 : Bytes → Draw.Source
deriving Inhabited

/-- The form of a text between quotes. -/
def Externals.debug (lib : Externals) (s : String) : String :=
  debugString lib.printable s

/-- The little-endian bytes of a 64-bit word. -/
def toLeBytes (n : UInt64) : Bytes :=
  (List.range 8).map fun i => UInt8.ofNat (n.toNat / 256 ^ i)

/-- The hash of some bytes, as text. -/
def deterministicHash (lib : Externals) (bytes : Bytes) : String :=
  lib.hexEncode (lib.sha256 bytes)

/-- The bytes that seed one random stream. -/
def rngPreimage (seed commandIndex : UInt64) (commandHash upstreamHash : String) : Bytes :=
  toLeBytes seed ++ toLeBytes commandIndex ++ asBytes commandHash ++ asBytes upstreamHash

/-- The random stream of one decision. -/
def rngFor (lib : Externals) (seed commandIndex : UInt64) (commandHash upstreamHash : String) :
    Draw.Source :=
  lib.chacha20 (lib.sha256 (rngPreimage seed commandIndex commandHash upstreamHash))

end EvilResp
