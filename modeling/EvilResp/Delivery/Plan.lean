import EvilResp.Config.Transport
import EvilResp.Externals
import EvilResp.Rng
import Mathlib.Data.List.Destutter
import Mathlib.Data.List.Sort

/-!
# Delivery plans

How the bytes of a reply are delivered: extra replies, a cut, chunk boundaries and a
connection fault.  A plan is a function of the seed, the command index, the hashes and
the length of the reply.  The outer {lit}`none` of a plan stands for a panic.

Main results:

- Theorem {lit}`DeliveryPlan.wireBytes_plain`: the plain plan sends the reply as it is.
- Theorem {lit}`TransportConfig.plan_disabled`: disabled settings give the plain plan.
-/

namespace EvilResp

open Library

/-! ## Plans -/

/-- A connection fault, with the place where it happens. -/
structure ConnectionFaultPlan where
  action : FaultAction
  point : FaultPoint
  afterBytes : Nat
  durationMs : Option Nat
deriving DecidableEq

/-- How one response is written. -/
structure DeliveryPlan where
  version : Nat
  extraReplyCount : Nat
  extraReplyBytesHex : String
  truncateAt : Option Nat
  /-- Exclusive offsets into the planned wire bytes, including the final end. -/
  chunkEnds : List Nat
  connectionFault : Option ConnectionFaultPlan
deriving DecidableEq

/-- The unsolicited reply. -/
def extraReply : Bytes :=
  asBytes "+EVILRESP\r\n"

/-- The bytes of the unsolicited reply, as hexadecimal digits. -/
def extraReplyHex : String :=
  "2b4556494c524553500d0a"

namespace DeliveryPlan

/-- The plan that delivers a response as it is. -/
def plain (len : Nat) : DeliveryPlan where
  version := 1
  extraReplyCount := 0
  extraReplyBytesHex := extraReplyHex
  truncateAt := none
  chunkEnds := if len = 0 then [] else [len]
  connectionFault := none

/-- A plan with a connection fault. -/
def setFault (plan : DeliveryPlan) (fault : ConnectionFaultPlan) : DeliveryPlan :=
  { plan with
    version := 2
    chunkEnds := plan.chunkEnds.filter (· < fault.afterBytes) ++
      (if 0 < fault.afterBytes then [fault.afterBytes] else [])
    connectionFault := some fault }

/-- The plan does anything but deliver the response. -/
def isFault (plan : DeliveryPlan) : Bool :=
  plan.connectionFault.isSome ∨ plan.extraReplyCount ≠ 0 ∨ plan.truncateAt.isSome ∨
    1 < plan.chunkEnds.length

/-- Keep a number of bytes, if one is given. -/
def cutAt (bytes : Bytes) : Option Nat → Bytes
  | some at_ => bytes.take at_
  | none => bytes

/-- The bytes that are to be written. -/
def wireBytes (plan : DeliveryPlan) (response : Bytes) : Bytes :=
  let response := response ++ (List.replicate plan.extraReplyCount extraReply).flatten
  cutAt (cutAt response plan.truncateAt) (plan.connectionFault.map (·.afterBytes))

/-- The plain plan sends the reply as it is. -/
theorem wireBytes_plain (response : Bytes) :
    (plain response.length).wireBytes response = response := by
  simp [wireBytes, plain, cutAt]

end DeliveryPlan

/-! ## Connection faults -/

namespace FaultConfig

/-- How many bytes precede the fault; an offset after the reply selects none. -/
def faultOffset (point : FaultPoint) (responseLen : Nat) : Draw (Option Nat) :=
  match point with
  | .before | .after => return some 0
  | .reply => return some responseLen
  | .random =>
      if 0 < responseLen then do
        let offset ← genRange 0 responseLen
        return some offset
      else return some 0
  | .bytes n => return if n ≤ responseLen then some n else none

/-- A connection fault with the configured probability, for a response of some length. -/
def draw (config : FaultConfig) (probability : F64) (responseLen : Nat) :
    Draw (Option ConnectionFaultPlan) := do
  let applies ← genBoolWith (probability.divRat 100)
  if !applies then return none
  else
    let offset ← faultOffset config.point responseLen
    return offset.map fun afterBytes => {
      action := config.action
      point := config.point
      afterBytes
      durationMs := if config.action = .stall then some config.durationMs else none }

/-- The fault of one reply.  Its stream does not depend on the reply, so a fault before
forwarding is selected without the upstream. -/
def plan (lib : Externals) (config : FaultConfig) (probability : F64) (seed commandIndex : UInt64)
    (commandHash : String) (responseLen : Nat) : Option (Option ConnectionFaultPlan) :=
  if config.action = .off ∨ probability.eq .zero then some none
  else
    (config.draw probability responseLen).run
      (rngFor lib seed commandIndex ("connection-fault:v1:" ++ commandHash) "")

end FaultConfig

/-! ## Delivery -/

namespace TransportConfig

/-- Where the stream is cut. -/
def drawCut (cut : Cut) (total : Nat) : Draw (Option Nat) :=
  match cut with
  | .off => return none
  | .at n => return if n < total then some n else none
  | .random =>
      if 0 < total then do
        let n ← genRange 0 total
        return some n
      else return none

/-- The chunk boundaries before the end.  Repeated offsets are merged. -/
def drawBoundaries (chunks : Chunks) (len : Nat) : Draw (List Nat) :=
  match chunks with
  | .off => return []
  | .at offsets => return offsets.filter (· < len)
  | .random =>
      if 1 < len then do
        let count ← genRange 1 (min maxBoundaries (len - 1) + 1)
        let offsets ← Draw.replicate count (genRange 1 len)
        return (offsets.insertionSort (· ≤ ·)).destutter (· ≠ ·)
      else return []

/-- The draws of a delivery, once the settings are enabled. -/
def drawDelivery (config : TransportConfig) (responseLen : Nat) : Draw DeliveryPlan := do
  let applies ← genBoolWith (config.probability.divRat 100)
  if !applies then return .plain responseLen
  else
    let total := responseLen + config.extra * extraReply.length
    let truncateAt ← drawCut config.truncate total
    let len := truncateAt.getD total
    let boundaries ← drawBoundaries config.chunks len
    return { DeliveryPlan.plain responseLen with
      extraReplyCount := config.extra
      truncateAt
      chunkEnds := boundaries ++ (if 0 < len then [len] else []) }

/-- The plan of a response, drawn from the transport stream. -/
def deliveryPlan (lib : Externals) (config : TransportConfig) (seed commandIndex : UInt64)
    (commandHash replyHash : String) (responseLen : Nat) : Option DeliveryPlan :=
  if !config.enabled ∨ config.probability.eq .zero then some (.plain responseLen)
  else
    (config.drawDelivery responseLen).run
      (rngFor lib seed commandIndex ("transport:v1:" ++ commandHash) replyHash)

/-- A fault that is selected before the command is forwarded. -/
def beforePlan (lib : Externals) (config : TransportConfig) (seed index : UInt64) (hash : String) :
    Option (Option DeliveryPlan) :=
  if config.fault.point ≠ .before then some none
  else
    (config.fault.plan lib config.probability seed index hash 0).map fun fault =>
      fault.map (DeliveryPlan.plain 0).setFault

/-- The plan of a response, with the connection fault that it may be given. -/
def plan (lib : Externals) (config : TransportConfig) (seed commandIndex : UInt64)
    (commandHash replyHash : String) (responseLen : Nat) : Option DeliveryPlan := do
  let plan ← config.deliveryPlan lib seed commandIndex commandHash replyHash responseLen
  if config.fault.point ≠ .before then
    let len := responseLen + plan.extraReplyCount * extraReply.length
    match ← config.fault.plan lib config.probability seed commandIndex commandHash len with
    | some fault => some (plan.setFault fault)
    | none => some plan
  else some plan

/-- Disabled settings give the plain plan. -/
theorem plan_disabled (lib : Externals) {config : TransportConfig} (h : config.enabled = false)
    (seed commandIndex : UInt64) (commandHash replyHash : String) (responseLen : Nat) :
    config.plan lib seed commandIndex commandHash replyHash responseLen =
      some (.plain responseLen) := by
  have haction : config.fault.action = .off := by
    by_contra hne
    simp [enabled, hne] at h
  simp [plan, deliveryPlan, h, FaultConfig.plan, haction]

end TransportConfig

end EvilResp
