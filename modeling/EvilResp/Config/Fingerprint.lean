import EvilResp.Externals
import EvilResp.Config.Options

/-!
# Protocol fingerprints

Two running hashes for each connection, one for each direction.  A hasher is
represented by the bytes it was fed, so an update is an append.

Main results:

- Theorem {lit}`quiet_parseDebugProtocol`: a rejected fingerprint query reports a
  single line.
-/

namespace EvilResp

open Library

/-- The bytes that a client sent, or those that it got. -/
inductive ProtocolDirection where
  | in
  | out
deriving DecidableEq

/-- The two hashes of a fingerprint. -/
inductive ProtocolHash where
  | blake3
  | tlsh
deriving DecidableEq

/-- A rejected fingerprint query. -/
def invalidFingerprint (message : String) : AppError :=
  .protocolFingerprint message

/-- Read a direction, in any letter case. -/
def ProtocolDirection.fromStr (lib : Externals) (value : String) : AppResult ProtocolDirection :=
  match toAsciiUppercase value with
  | "IN" => .ok .in
  | "OUT" => .ok .out
  | _ =>
      .error (invalidFingerprint
        ("unknown protocol direction " ++ lib.debug value ++ "; expected <IN|OUT>"))

/-- Read the name of a hash, in any letter case. -/
def ProtocolHash.fromStr (lib : Externals) (value : String) : AppResult ProtocolHash :=
  match toAsciiUppercase value with
  | "BLAKE3" => .ok .blake3
  | "TLSH" => .ok .tlsh
  | _ =>
      .error (invalidFingerprint
        ("unknown protocol hash " ++ lib.debug value ++ "; expected <BLAKE3|TLSH>"))

/-! ## Fingerprints -/

/-- The bytes fed to the hashers of both directions. -/
structure ProtocolFingerprints where
  input : Bytes := []
  output : Bytes := []
deriving DecidableEq

namespace ProtocolFingerprints

/-- The bytes of one direction go into the fingerprints. -/
def update (fingerprints : ProtocolFingerprints) (direction : ProtocolDirection) (bytes : Bytes) :
    ProtocolFingerprints :=
  match direction with
  | .in => { fingerprints with input := fingerprints.input ++ bytes }
  | .out => { fingerprints with output := fingerprints.output ++ bytes }

/-- The fingerprint of one direction. -/
def get (lib : Externals) (fingerprints : ProtocolFingerprints) (direction : ProtocolDirection)
    (algorithm : ProtocolHash) : String :=
  let bytes :=
    match direction with
    | .in => fingerprints.input
    | .out => fingerprints.output
  match algorithm with
  | .blake3 => lib.blake3 bytes
  | .tlsh => lib.tlsh bytes

end ProtocolFingerprints

/-! ## Queries -/

/-- The usage of {lit}`DEBUG PROTOCOL`. -/
def debugProtocolUsage : String :=
  "expected DEBUG PROTOCOL <IN|OUT> <BLAKE3|TLSH>"

/-- The direction is checked before the hash is missed. -/
def parseDebugProtocol (lib : Externals) :
    List String → AppResult (ProtocolDirection × ProtocolHash)
  | debug :: protocol :: args => do
      if !eqIgnoreAsciiCase debug "DEBUG" ∨ !eqIgnoreAsciiCase protocol "PROTOCOL" then
        .error (invalidFingerprint debugProtocolUsage)
      else
        match args with
        | [] => .error (invalidFingerprint (debugProtocolUsage ++ "; missing protocol direction"))
        | direction :: args => do
            let direction ← ProtocolDirection.fromStr lib direction
            match args with
            | [] => .error (invalidFingerprint (debugProtocolUsage ++ "; missing protocol hash"))
            | algorithm :: args => do
                let algorithm ← ProtocolHash.fromStr lib algorithm
                match args with
                | [] => .ok (direction, algorithm)
                | extra :: _ =>
                    .error (invalidFingerprint
                      (debugProtocolUsage ++ "; unexpected argument " ++ lib.debug extra))
  | _ => .error (invalidFingerprint debugProtocolUsage)

/-- An error on one line stays on one line. -/
theorem quiet_invalidFingerprint {α : Type} {message : String} (h : SingleLine message) :
    Quiet (.error (invalidFingerprint message) : AppResult α) := by
  have htext : (invalidFingerprint message).message =
      "invalid protocol fingerprint request: " ++ message := rfl
  rw [quiet_error, htext, singleLine_append]
  exact ⟨singleLine_ofList rfl, h⟩

variable {lib : Externals}

/-- An unknown direction is refused on one line. -/
theorem quiet_directionFromStr (value : String) : Quiet (ProtocolDirection.fromStr lib value) := by
  unfold ProtocolDirection.fromStr
  split
  · exact quiet_ok
  · exact quiet_ok
  · apply quiet_invalidFingerprint
    rw [singleLine_append, singleLine_append]
    exact ⟨⟨singleLine_ofList rfl, singleLine_debugString _ _⟩, singleLine_ofList rfl⟩

/-- An unknown hash is refused on one line. -/
theorem quiet_hashFromStr (value : String) : Quiet (ProtocolHash.fromStr lib value) := by
  unfold ProtocolHash.fromStr
  split
  · exact quiet_ok
  · exact quiet_ok
  · apply quiet_invalidFingerprint
    rw [singleLine_append, singleLine_append]
    exact ⟨⟨singleLine_ofList rfl, singleLine_debugString _ _⟩, singleLine_ofList rfl⟩

/-- A rejected fingerprint query reports a single line. -/
theorem quiet_parseDebugProtocol (argv : List String) : Quiet (parseDebugProtocol lib argv) := by
  have husage : SingleLine debugProtocolUsage := singleLine_ofList rfl
  unfold parseDebugProtocol
  split
  case h_2 => exact quiet_invalidFingerprint husage
  apply quiet_ite (quiet_invalidFingerprint husage)
  split
  · exact quiet_invalidFingerprint (singleLine_append.mpr ⟨husage, singleLine_ofList rfl⟩)
  refine quiet_bind (quiet_directionFromStr _) fun direction _ => ?_
  split
  · exact quiet_invalidFingerprint (singleLine_append.mpr ⟨husage, singleLine_ofList rfl⟩)
  refine quiet_bind (quiet_hashFromStr _) fun algorithm _ => ?_
  split
  · exact quiet_ok
  · apply quiet_invalidFingerprint
    rw [singleLine_append, singleLine_append]
    exact ⟨⟨husage, singleLine_ofList rfl⟩, singleLine_debugString _ _⟩

end EvilResp
