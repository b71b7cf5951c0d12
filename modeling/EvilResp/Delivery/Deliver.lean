import EvilResp.Config.Fingerprint
import EvilResp.Delivery.Plan

/-!
# Writing to the client

The client's writer accepts any part of what it is offered, makes no progress, is
interrupted or fails.  A script lists what the next operations meet; when it is used
up, everything is accepted.  Counted writes feed every accepted byte to the fingerprint
of the output at once.

Main results:

- Theorem {lit}`writeCounted_counts`: a counted write feeds exactly what was accepted,
  and accepts everything when it succeeds.
- Theorem {lit}`deliver_counts`: so does the delivery of a planned reply.
-/

namespace EvilResp

open Library

/-! ## The writer -/

/-- What one operation on the writer meets. -/
inductive WriteEvent where
  | accept (n : Nat)
  | failed (error : IoError)
deriving DecidableEq

/-- The result of writing bytes, with the part of them that was accepted. -/
structure Counted where
  script : List WriteEvent
  fingerprints : ProtocolFingerprints
  accepted : Bytes
  result : Except IoError Unit

/-- Short writes and interruptions go on with the rest. -/
def writeCounted : List WriteEvent → ProtocolFingerprints → Bytes → Counted
  | script, fingerprints, [] => { script, fingerprints, accepted := [], result := .ok () }
  | [], fingerprints, bytes =>
      { script := [], fingerprints := fingerprints.update .out bytes, accepted := bytes
        result := .ok () }
  | .accept 0 :: script, fingerprints, _ =>
      { script, fingerprints, accepted := []
        result := .error { kind := .writeZero, message := "client writer made no progress" } }
  | .accept (n + 1) :: script, fingerprints, bytes =>
      let taken := bytes.take (n + 1)
      let rest := writeCounted script (fingerprints.update .out taken) (bytes.drop (n + 1))
      { rest with accepted := taken ++ rest.accepted }
  | .failed error :: script, fingerprints, bytes =>
      if error.kind = .interrupted then writeCounted script fingerprints bytes
      else { script, fingerprints, accepted := [], result := .error error }

/-- The library's own loop, which counts nothing and does not retry. -/
def writeAll : List WriteEvent → Bytes → List WriteEvent × Bytes × Except IoError Unit
  | script, [] => (script, [], .ok ())
  | [], bytes => ([], bytes, .ok ())
  | .accept 0 :: script, _ =>
      (script, [], .error { kind := .writeZero, message := "write zero" })
  | .accept (n + 1) :: script, bytes =>
      let (script, accepted, result) := writeAll script (bytes.drop (n + 1))
      (script, bytes.take (n + 1) ++ accepted, result)
  | .failed error :: script, _ => (script, [], .error error)

/-- A flush or a shutdown. -/
def operate : List WriteEvent → List WriteEvent × Except IoError Unit
  | .failed error :: script => (script, .error error)
  | _ :: script => (script, .ok ())
  | [] => ([], .ok ())

theorem update_nil (fingerprints : ProtocolFingerprints) (direction : ProtocolDirection) :
    fingerprints.update direction [] = fingerprints := by
  cases direction <;> simp [ProtocolFingerprints.update]

theorem update_append (fingerprints : ProtocolFingerprints) (direction : ProtocolDirection)
    (bytes more : Bytes) :
    (fingerprints.update direction bytes).update direction more =
      fingerprints.update direction (bytes ++ more) := by
  cases direction <;> simp [ProtocolFingerprints.update]

/-- A counted write feeds exactly what was accepted, and accepts everything when it
succeeds. -/
theorem writeCounted_counts (script : List WriteEvent) :
    ∀ (fingerprints : ProtocolFingerprints) (bytes : Bytes),
      let counted := writeCounted script fingerprints bytes
      counted.fingerprints = fingerprints.update .out counted.accepted ∧
      counted.accepted <+: bytes ∧ (counted.result = .ok () → counted.accepted = bytes) := by
  induction script with
  | nil =>
      intro fingerprints bytes
      cases bytes with
      | nil => exact ⟨(update_nil _ _).symm, List.prefix_rfl, fun _ => rfl⟩
      | cons b bytes => exact ⟨rfl, List.prefix_rfl, fun _ => rfl⟩
  | cons event script ih =>
      intro fingerprints bytes
      cases bytes with
      | nil => exact ⟨(update_nil _ _).symm, List.prefix_rfl, fun _ => rfl⟩
      | cons b bytes =>
          cases event with
          | accept n =>
              cases n with
              | zero => exact ⟨(update_nil _ _).symm, List.nil_prefix, fun h => by cases h⟩
              | succ n =>
                  rcases ih (fingerprints.update .out ((b :: bytes).take (n + 1)))
                    ((b :: bytes).drop (n + 1)) with ⟨hfed, hprefix, hwhole⟩
                  refine ⟨?_, ?_, fun hok => ?_⟩
                  · simp only [writeCounted]
                    rw [hfed, update_append]
                  · have hparts := List.take_append_drop (n + 1) (b :: bytes)
                    simp only [writeCounted]
                    calc _ <+: (b :: bytes).take (n + 1) ++ (b :: bytes).drop (n + 1) :=
                          (List.prefix_append_right_inj _).mpr hprefix
                      _ = b :: bytes := hparts
                  · simp only [writeCounted] at hok ⊢
                    rw [hwhole hok, List.take_append_drop]
          | failed error =>
              by_cases hretry : error.kind = .interrupted
              · simpa only [writeCounted, if_pos hretry] using ih fingerprints (b :: bytes)
              · simp only [writeCounted, if_neg hretry]
                exact ⟨(update_nil _ _).symm, List.nil_prefix, fun h => by cases h⟩

/-! ## Delivery -/

/-- What a delivery says about itself; an error is known by the name of its kind. -/
structure DeliveryOutcome where
  bytesWritten : Nat
  writtenBytesHash : String
  completedChunks : Nat
  shutdownCompleted : Bool
  errorStage : Option String
  errorKind : Option String
  faultCompleted : Option Bool
  stallEnd : Option String
deriving DecidableEq

/-- A delivery under way; it ends early with a stage and an error. -/
structure Delivery where
  script : List WriteEvent
  fingerprints : ProtocolFingerprints
  accepted : Bytes := []
  completedChunks : Nat := 0
  shutdownCompleted : Bool := false
  failure : Option (String × IoError) := none

/-- The bytes between two offsets, unless they are out of range. -/
def slice (bytes : Bytes) (start stop : Nat) : Option Bytes :=
  if start ≤ stop ∧ stop ≤ bytes.length then some ((bytes.drop start).take (stop - start)) else none

/-- Write and flush one chunk after the other. -/
def deliverChunks (bytes : Bytes) : List Nat → Nat → Delivery → Option Delivery
  | [], _, delivery => some delivery
  | stop :: ends, start, delivery => do
      let chunk ← slice bytes start stop
      let counted := writeCounted delivery.script delivery.fingerprints chunk
      let delivery := { delivery with
        script := counted.script
        fingerprints := counted.fingerprints
        accepted := delivery.accepted ++ counted.accepted }
      match counted.result with
      | .error error => some { delivery with failure := some ("write", error) }
      | .ok () =>
          match operate delivery.script with
          | (script, .error error) => some { delivery with script, failure := some ("flush", error) }
          | (script, .ok ()) =>
              deliverChunks bytes ends stop
                { delivery with script, completedChunks := delivery.completedChunks + 1 }

/-- A truncated reply is followed by a shutdown. -/
def finishTruncated (plan : DeliveryPlan) (delivery : Delivery) : Delivery :=
  if delivery.failure.isSome ∨ plan.truncateAt.isNone then delivery
  else
    match operate delivery.script with
    | (script, .error error) => { delivery with script, failure := some ("shutdown", error) }
    | (script, .ok ()) => { delivery with script, shutdownCompleted := true }

/-- Deliver bytes by a plan; {lit}`none` stands for a panic. -/
def deliver (script : List WriteEvent) (fingerprints : ProtocolFingerprints) (bytes : Bytes)
    (plan : DeliveryPlan) : Option Delivery :=
  (deliverChunks bytes plan.chunkEnds 0 { script, fingerprints }).map (finishTruncated plan)

/-- What is recorded of a delivery. -/
def Delivery.outcome (lib : Externals) (plan : DeliveryPlan) (bytes : Bytes)
    (delivery : Delivery) : DeliveryOutcome where
  bytesWritten := delivery.accepted.length
  writtenBytesHash := deterministicHash lib (bytes.take delivery.accepted.length)
  completedChunks := delivery.completedChunks
  shutdownCompleted := delivery.shutdownCompleted
  errorStage := delivery.failure.map Prod.fst
  errorKind := delivery.failure.map (·.2.kind.debugName)
  faultCompleted := plan.connectionFault.map fun _ => false
  stallEnd := none

/-- What was fed is what was accepted. -/
theorem deliverChunks_counts {bytes : Bytes} {before : ProtocolFingerprints} {ends : List Nat} :
    ∀ {start : Nat} {delivery next : Delivery},
      deliverChunks bytes ends start delivery = some next →
      delivery.fingerprints = before.update .out delivery.accepted →
      next.fingerprints = before.update .out next.accepted := by
  induction ends with
  | nil =>
      intro start delivery next h hfed
      cases h
      exact hfed
  | cons stop ends ih =>
      intro start delivery next h hfed
      rcases Option.bind_eq_some_iff.mp h with ⟨chunk, -, hchunk⟩
      rcases writeCounted_counts delivery.script delivery.fingerprints chunk with ⟨hcounted, -, -⟩
      have hfed' : (writeCounted delivery.script delivery.fingerprints chunk).fingerprints =
          before.update .out (delivery.accepted ++
            (writeCounted delivery.script delivery.fingerprints chunk).accepted) := by
        rw [hcounted, hfed, update_append]
      dsimp only at hchunk
      split at hchunk
      · cases hchunk
        exact hfed'
      · split at hchunk
        · cases hchunk
          exact hfed'
        · exact ih hchunk hfed'

/-- What was fed is what was accepted. -/
theorem deliver_counts {script : List WriteEvent} {fingerprints : ProtocolFingerprints}
    {bytes : Bytes} {plan : DeliveryPlan} {delivery : Delivery}
    (h : deliver script fingerprints bytes plan = some delivery) :
    delivery.fingerprints = fingerprints.update .out delivery.accepted := by
  rcases Option.map_eq_some_iff.mp h with ⟨chunks, hchunks, rfl⟩
  have hfed := deliverChunks_counts hchunks (update_nil fingerprints .out).symm
  unfold finishTruncated
  split_ifs
  · exact hfed
  · split
    · exact hfed
    · exact hfed

end EvilResp
