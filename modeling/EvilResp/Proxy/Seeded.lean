import EvilResp.Delivery.Plan
import EvilResp.Mutation.Canonical
import EvilResp.Mutation.Exec

/-!
# Seeded outcomes

Every random choice about a reply is seeded with the hash of its canonical form, so
an order that the upstream server is free to choose has no influence on the outcome.

Main results:

- Theorem {lit}`canonicalInput_eq_of_reordered`: the canonical form forgets the order.
- Theorem {lit}`outcome_eq_of_reordered`: so do the mutated reply and the delivery.
-/

namespace EvilResp

open Library
open EvilResp.Resp

/-- The canonical form of a reply.  The results of a finished transaction are
canonicalized under the commands that were queued. -/
def canonicalInput (mode : CanonicalizationMode) (execCommands : Option (List String))
    (commandName : Option String) (f : Frame) : Frame :=
  match execCommands with
  | some commands => canonicalizeTransactionReply mode commands f
  | none => canonicalizeReply mode commandName f

/-- The hash of a canonical reply, which its mutations are seeded with. -/
def seedHash (lib : Externals) (canonical : Frame) : String :=
  deterministicHash lib canonical.encode

/-- Replies that differ in an order without meaning. -/
def ReorderedInput (mode : CanonicalizationMode) (execCommands : Option (List String))
    (commandName : Option String) (f g : Frame) : Prop :=
  match execCommands with
  | some commands => ReorderedResults mode commands f g
  | none => ReorderedReply mode commandName f g

/-- The canonical form forgets an order without meaning. -/
theorem canonicalInput_eq_of_reordered {mode : CanonicalizationMode} (hmode : mode ≠ .none)
    {execCommands : Option (List String)} {commandName : Option String} {f g : Frame}
    (hf : f.Typed) (h : ReorderedInput mode execCommands commandName f g) :
    canonicalInput mode execCommands commandName f =
      canonicalInput mode execCommands commandName g := by
  cases execCommands with
  | some commands =>
      have h : ReorderedResults mode commands f g := h
      exact (h.canonical hmode hf).2
  | none =>
      have h : ReorderedReply mode commandName f g := h
      exact (h.canonical hmode hf).2

/-- Replies that differ in an order without meaning have equal canonical forms, the same
mutated reply, and the same delivery plan for every length of the response. -/
theorem outcome_eq_of_reordered (lib : Externals) (config : EvilConfig)
    (hmode : config.canonicalization ≠ .none) (execCommands : Option (List String))
    (commandName : Option String) (commandIndex : UInt64) (commandHash : String) {f g : Frame}
    (hf : f.Typed) (h : ReorderedInput config.canonicalization execCommands commandName f g) :
    let canonical := canonicalInput config.canonicalization execCommands commandName
    canonical f = canonical g ∧
      (∃ reply : MutatedReply,
        mutateCommandReply lib config commandIndex commandName commandHash
          (seedHash lib (canonical f)) (canonical f) = some reply ∧
        mutateCommandReply lib config commandIndex commandName commandHash
          (seedHash lib (canonical g)) (canonical g) = some reply) ∧
      ∀ responseLen,
        config.transport.plan lib config.seed commandIndex commandHash
          (seedHash lib (canonical f)) responseLen =
        config.transport.plan lib config.seed commandIndex commandHash
          (seedHash lib (canonical g)) responseLen := by
  intro canonical
  have hcanonical : canonical f = canonical g := canonicalInput_eq_of_reordered hmode hf h
  refine ⟨hcanonical, ?_, ?_⟩
  · rcases mutateCommandReply_isSome lib config commandIndex commandName commandHash
      (seedHash lib (canonical f)) (canonical f) with ⟨reply, hreply⟩
    exact ⟨reply, hreply, hcanonical ▸ hreply⟩
  · intro responseLen
    rw [hcanonical]

/-- Two members of a set in either order, as the reply to SMEMBERS. -/
theorem outcome_eq_of_reordered_smembers :
    let lib : Externals := {
      printable := fun _ => true, displayF64 := fun _ => "0", buildRegex := fun _ => .ok fun _ => true
      hexEncode := fun _ => "", sha256 := id, blake3 := fun _ => "", tlsh := fun _ => ""
      chacha20 := fun _ _ => 0 }
    let config : EvilConfig := { mode := .mutate, probability := .hundred }
    let first : Frame := .array (some [.bulkString (some [98]), .bulkString (some [97])])
    let second : Frame := .array (some [.bulkString (some [97]), .bulkString (some [98])])
    let canonical := canonicalInput .unordered none (some "smembers")
    canonical first = canonical second ∧
      (∃ reply : MutatedReply,
        mutateCommandReply lib config 0 (some "smembers") "" (seedHash lib (canonical first))
          (canonical first) = some reply ∧
        mutateCommandReply lib config 0 (some "smembers") "" (seedHash lib (canonical second))
          (canonical second) = some reply) ∧
      ∀ responseLen,
        config.transport.plan lib config.seed 0 "" (seedHash lib (canonical first)) responseLen =
        config.transport.plan lib config.seed 0 "" (seedHash lib (canonical second)) responseLen :=
  outcome_eq_of_reordered _ { mode := .mutate, probability := .hundred } (by decide) none
    (some "smembers") 0 "" (by decide)
    (ReorderedReply.items rfl rfl (by decide : "SMEMBERS" ∈ unorderedItems) (List.Perm.swap _ _ _))

end EvilResp
