import EvilResp.Cluster.Faults
import EvilResp.Delivery.Plan
import EvilResp.Library.Numeric
import EvilResp.Mutation.Exec

/-!
# Random streams

Every decision about a reply draws from a stream of its own, seeded with the digest of a
preimage.  The preimages join their fields without separators, so they are told apart by their
lengths and by the marks in front of the command hash.

Main results:

- Theorem {lit}`rngPreimage_inj`: the fields of a preimage can be told from it.
- Theorem {lit}`RandomStream.decision_of_length`: the length of a preimage names its kind.
- Theorem {lit}`draws_own_streams`: what is drawn for a command is drawn from its own stream.
- Theorem {lit}`randomStreams_separated`: streams with one preimage are one stream.
-/

namespace EvilResp

open Library
open EvilResp.Resp

/-! ## Hashes -/

/-- The text of 64 lower-case hexadecimal digits. -/
def IsHash (s : String) : Prop :=
  s.length = 64 ∧ ∀ c ∈ s.toList, c.isDigit ∨ ('a' ≤ c ∧ c ≤ 'f')

/-- A hash of a command. -/
abbrev CommandHash := { s : String // IsHash s }

/-- The hash of a reply, or no text where there is no reply. -/
abbrev ReplyHash := { s : String // s = "" ∨ IsHash s }

theorem IsHash.length_asBytes {s : String} (h : IsHash s) : (asBytes s).length = 64 := by
  obtain ⟨hlength, hdigits⟩ := h
  rw [length_asBytes_ascii, hlength]
  intro c hc
  rcases hdigits c hc with hdigit | ⟨-, hle⟩
  · have := (toNat_of_isDigit hdigit).2
    omega
  · have hle : c.toNat ≤ 'f'.toNat := hle
    exact hle.trans_lt (by decide)

theorem CommandHash.length_asBytes (hash : CommandHash) : (asBytes hash.1).length = 64 :=
  hash.2.length_asBytes

theorem ReplyHash.length_asBytes (hash : ReplyHash) :
    (asBytes hash.1).length = 0 ∨ (asBytes hash.1).length = 64 := by
  rcases hash.2 with hnone | hhash
  · rw [hnone]
    exact .inl rfl
  · exact .inr hhash.length_asBytes

/-! ## Preimages -/

/-- Numbers whose first digits agree leave one remainder. -/
theorem mod_pow_eq_of_digits {m n b : Nat} (k : Nat)
    (h : ∀ i, i < k → m / b ^ i % b = n / b ^ i % b) : m % b ^ k = n % b ^ k := by
  induction k with
  | zero => rw [pow_zero, Nat.mod_one, Nat.mod_one]
  | succ k ih =>
      rw [Nat.mod_pow_succ, Nat.mod_pow_succ, ih fun i hi => h i (by omega), h k (by omega)]

theorem toLeBytes_injective : Function.Injective toLeBytes := by
  intro m n h
  have hmod : m.toNat % 256 ^ 8 = n.toNat % 256 ^ 8 := by
    apply mod_pow_eq_of_digits
    intro i hi
    have hbyte := congrArg (fun bytes => (bytes[i]?.getD 0).toNat) h
    simpa [toLeBytes, hi] using hbyte
  apply UInt64.toNat_inj.mp
  rwa [Nat.mod_eq_of_lt (m.toNat_lt.trans_eq (by norm_num)),
    Nat.mod_eq_of_lt (n.toNat_lt.trans_eq (by norm_num))] at hmod

theorem length_toLeBytes (n : UInt64) : (toLeBytes n).length = 8 := by
  simp [toLeBytes]

theorem length_rngPreimage (seed index : UInt64) (commandHash replyHash : String) :
    (rngPreimage seed index commandHash replyHash).length =
      16 + (asBytes commandHash).length + (asBytes replyHash).length := by
  simp only [rngPreimage, List.length_append, length_toLeBytes]

/-- Command hashes of one length let all fields be told apart. -/
theorem rngPreimage_inj {seed seed' index index' : UInt64}
    {commandHash commandHash' replyHash replyHash' : String}
    (hlength : (asBytes commandHash).length = (asBytes commandHash').length)
    (h : rngPreimage seed index commandHash replyHash =
      rngPreimage seed' index' commandHash' replyHash') :
    seed = seed' ∧ index = index' ∧ commandHash = commandHash' ∧ replyHash = replyHash' := by
  simp only [rngPreimage, List.append_assoc] at h
  obtain ⟨hseed, h⟩ := List.append_inj h (by rw [length_toLeBytes, length_toLeBytes])
  obtain ⟨hindex, h⟩ := List.append_inj h (by rw [length_toLeBytes, length_toLeBytes])
  obtain ⟨hcommand, hreply⟩ := List.append_inj h hlength
  exact ⟨toLeBytes_injective hseed, toLeBytes_injective hindex, asBytes_injective hcommand,
    asBytes_injective hreply⟩

/-! ## Streams -/

/-- The kinds of decisions about a reply. -/
inductive Decision where
  | reply
  | exec
  | transport
  | connectionFault
  | topology
deriving DecidableEq

/-- How much text marks the preimages of each kind. -/
def Decision.markLength : Decision → Nat
  | reply => 0
  | exec => 5
  | transport => 13
  | connectionFault => 20
  | topology => 17

theorem Decision.markLength_lt (decision : Decision) : decision.markLength < 64 := by
  cases decision <;> decide

theorem Decision.markLength_injective : Function.Injective Decision.markLength := by
  intro decision other h
  cases decision <;> cases other <;> first | rfl | exact absurd h (by decide)

/-- The stream of one decision.  A connection fault knows no reply. -/
inductive RandomStream where
  | reply (seed index : UInt64) (commandHash : CommandHash) (replyHash : ReplyHash)
  | exec (seed index : UInt64) (commandHash : CommandHash) (replyHash : ReplyHash)
  | transport (seed index : UInt64) (commandHash : CommandHash) (replyHash : ReplyHash)
  | connectionFault (seed index : UInt64) (commandHash : CommandHash)
  | topology (seed index : UInt64) (commandHash : CommandHash) (replyHash : ReplyHash)

namespace RandomStream

/-- The kind of the decision that a stream is for. -/
def decision : RandomStream → Decision
  | reply .. => .reply
  | exec .. => .exec
  | transport .. => .transport
  | connectionFault .. => .connectionFault
  | topology .. => .topology

/-- The bytes whose digest seeds a stream. -/
def preimage : RandomStream → Bytes
  | reply seed index commandHash replyHash => rngPreimage seed index commandHash replyHash
  | exec seed index commandHash replyHash =>
      rngPreimage seed index ("exec:" ++ commandHash) replyHash
  | transport seed index commandHash replyHash =>
      rngPreimage seed index ("transport:v1:" ++ commandHash) replyHash
  | connectionFault seed index commandHash =>
      rngPreimage seed index ("connection-fault:v1:" ++ commandHash) ""
  | topology seed index commandHash replyHash =>
      asBytes "evilresp-topology" ++ rngPreimage seed index commandHash replyHash

/-- The outcomes of a stream. -/
def source (lib : Externals) (stream : RandomStream) : Draw.Source :=
  lib.chacha20 (lib.sha256 stream.preimage)

/-- A mark in front of the command hash. -/
theorem length_marked (mark : String) (commandHash : CommandHash) :
    (asBytes (mark ++ commandHash)).length = (asBytes mark).length + 64 := by
  rw [asBytes_append, List.length_append, commandHash.length_asBytes]

/-- The length of a preimage is the length of its mark and of its fields. -/
theorem length_preimage (stream : RandomStream) :
    ∃ n, (n = 0 ∨ n = 64) ∧ stream.preimage.length = 80 + stream.decision.markLength + n := by
  cases stream with
  | reply seed index commandHash replyHash =>
      refine ⟨_, replyHash.length_asBytes, ?_⟩
      rw [preimage, length_rngPreimage, commandHash.length_asBytes]
      rfl
  | exec seed index commandHash replyHash =>
      refine ⟨_, replyHash.length_asBytes, ?_⟩
      rw [preimage, length_rngPreimage, length_marked]
      rfl
  | transport seed index commandHash replyHash =>
      refine ⟨_, replyHash.length_asBytes, ?_⟩
      rw [preimage, length_rngPreimage, length_marked]
      rfl
  | connectionFault seed index commandHash =>
      refine ⟨0, .inl rfl, ?_⟩
      rw [preimage, length_rngPreimage, length_marked]
      rfl
  | topology seed index commandHash replyHash =>
      refine ⟨_, replyHash.length_asBytes, ?_⟩
      rw [preimage, List.length_append, length_rngPreimage, commandHash.length_asBytes]
      rw [show (asBytes "evilresp-topology").length = 17 by decide]
      simp only [decision, Decision.markLength]
      omega

/-- The length of a preimage names the kind of the decision. -/
theorem decision_of_length {stream other : RandomStream}
    (h : stream.preimage.length = other.preimage.length) : stream.decision = other.decision := by
  obtain ⟨m, hm, hlength⟩ := stream.length_preimage
  obtain ⟨n, hn, hlength'⟩ := other.length_preimage
  have hmark := stream.decision.markLength_lt
  have hmark' := other.decision.markLength_lt
  apply Decision.markLength_injective
  omega

/-- The fields of marked preimages. -/
theorem marked_inj {seed seed' index index' : UInt64} {commandHash commandHash' : CommandHash}
    {replyHash replyHash' : String} (mark : String)
    (h : rngPreimage seed index (mark ++ commandHash) replyHash =
      rngPreimage seed' index' (mark ++ commandHash') replyHash') :
    seed = seed' ∧ index = index' ∧ commandHash = commandHash' ∧ replyHash = replyHash' := by
  obtain ⟨hseed, hindex, hcommand, hreply⟩ :=
    rngPreimage_inj (by rw [length_marked, length_marked]) h
  exact ⟨hseed, hindex, Subtype.ext (String.append_right_inj mark |>.mp hcommand), hreply⟩

/-- The fields of unmarked preimages. -/
theorem unmarked_inj {seed seed' index index' : UInt64} {commandHash commandHash' : CommandHash}
    {replyHash replyHash' : ReplyHash}
    (h : rngPreimage seed index commandHash replyHash =
      rngPreimage seed' index' commandHash' replyHash') :
    seed = seed' ∧ index = index' ∧ commandHash = commandHash' ∧ replyHash = replyHash' := by
  obtain ⟨hseed, hindex, hcommand, hreply⟩ :=
    rngPreimage_inj (by rw [commandHash.length_asBytes, commandHash'.length_asBytes]) h
  exact ⟨hseed, hindex, Subtype.ext hcommand, Subtype.ext hreply⟩

/-- Streams with one preimage are of one kind and have equal fields. -/
theorem preimage_injective : Function.Injective preimage := by
  intro stream other h
  have hdecision := decision_of_length (congrArg List.length h)
  cases stream <;> cases other <;> cases hdecision
  case reply.reply =>
    obtain ⟨rfl, rfl, rfl, rfl⟩ := unmarked_inj h
    rfl
  case exec.exec =>
    obtain ⟨rfl, rfl, rfl, hreply⟩ := marked_inj _ h
    rw [Subtype.ext hreply]
  case transport.transport =>
    obtain ⟨rfl, rfl, rfl, hreply⟩ := marked_inj _ h
    rw [Subtype.ext hreply]
  case connectionFault.connectionFault =>
    obtain ⟨rfl, rfl, rfl, -⟩ := marked_inj _ h
    rfl
  case topology.topology =>
    obtain ⟨rfl, rfl, rfl, rfl⟩ := unmarked_inj (List.append_cancel_left h)
    rfl

end RandomStream

/-! ## Draws -/

/-- The reply hash where there is no reply. -/
def ReplyHash.none : ReplyHash :=
  ⟨"", .inl rfl⟩

/-- Everything that is drawn for one command is drawn from a stream of its own. -/
structure OwnStreams (lib : Externals) (config : EvilConfig) (index : UInt64)
    (commandHash : CommandHash) (replyHash : ReplyHash) : Prop where
  random : randomReply lib config index commandHash =
    ((config.generator.frame lib).run
      ((RandomStream.reply config.seed index commandHash .none).source lib)).map fun frame =>
        { bytes := frame.encode, mutations := [{ path := "root", kind := .randomFrame }] }
  reply : ∀ upstream, mutateReply lib config index commandHash replyHash upstream =
    (mutate lib config upstream).run
      ((RandomStream.reply config.seed index commandHash replyHash).source lib)
  exec : ∀ upstream items, ExecConfig.editable config upstream = some items →
    ExecConfig.mutateReply lib config index commandHash replyHash upstream =
      (config.exec.edit items (ExecConfig.canSwap items)).run
        ((RandomStream.exec config.seed index commandHash replyHash).source lib)
  transport : config.transport.enabled = true → config.transport.probability.eq .zero = false →
    ∀ len, config.transport.deliveryPlan lib config.seed index commandHash replyHash len =
      (config.transport.drawDelivery len).run
        ((RandomStream.transport config.seed index commandHash replyHash).source lib)
  connectionFault : config.transport.fault.action ≠ .off →
    config.transport.probability.eq .zero = false →
    ∀ len, config.transport.fault.plan lib config.transport.probability config.seed index
        commandHash len =
      (config.transport.fault.draw config.transport.probability len).run
        ((RandomStream.connectionFault config.seed index commandHash).source lib)
  redirect : ∀ redirect context, config.topologyRedirect = some redirect →
    redirectActive config redirect context = true → context.commandIndex = index →
    context.commandHash = commandHash →
    (context.upstreamBytes.map (deterministicHash lib)).getD "" = replyHash →
    configuredRedirection lib config context =
      (drawRedirection config.topologyProbability redirect context).run
        ((RandomStream.topology config.seed index commandHash replyHash).source lib)
  topology : ∀ command upstreamBytes upstream localSlots,
    config.topologyProbability.le .zero = false → config.topologyRedirect = none →
    redirectionTargets localSlots ≠ [] → upstreamRedirection upstreamBytes = .ok upstream →
    (upstreamBytes.map (deterministicHash lib)).getD "" = replyHash →
    maybeMutateTopology lib config index commandHash command upstreamBytes localSlots =
      .ok ((drawTopology config.topologyProbability (redirectionTargets localSlots) command
        upstream).run
          ((RandomStream.topology config.seed index commandHash replyHash).source lib))

/-- What is drawn for a command is drawn from its own stream. -/
theorem draws_own_streams (lib : Externals) (config : EvilConfig) (index : UInt64)
    (commandHash : CommandHash) (replyHash : ReplyHash) :
    OwnStreams lib config index commandHash replyHash where
  random := rfl
  reply _ := rfl
  exec upstream items hitems := by
    rw [ExecConfig.mutateReply, hitems]
    rfl
  transport henabled hprobability len := by
    rw [TransportConfig.deliveryPlan, if_neg (by simp [henabled, hprobability])]
    rfl
  connectionFault haction hprobability len := by
    rw [FaultConfig.plan, if_neg (by simp [haction, hprobability])]
    rfl
  redirect redirect context hredirect hactive hindex hcommand hreply := by
    rw [configuredRedirection, hredirect]
    simp only [hactive, Bool.not_true, Bool.false_eq_true, if_false]
    rw [hindex, hcommand, hreply]
    rfl
  topology command upstreamBytes upstream localSlots hprobability hredirect htargets hupstream
      hreply := by
    rw [maybeMutateTopology, if_neg (by simp [hprobability, hredirect])]
    simp only [if_neg htargets, hupstream, hreply]
    rfl

/-- Streams with one preimage are one stream; the preimages are those that seed the generators of
the source; and every decision about a command is drawn from the stream of its kind. -/
theorem randomStreams_separated (lib : Externals) :
    (∀ stream other : RandomStream, stream.preimage = other.preimage → stream = other) ∧
      (∀ (config : EvilConfig) (index : UInt64) (commandHash : CommandHash)
        (replyHash : ReplyHash), OwnStreams lib config index commandHash replyHash) ∧
      ∀ (seed index : UInt64) (commandHash : CommandHash) (replyHash : ReplyHash),
        rngFor lib seed index commandHash replyHash =
            (RandomStream.reply seed index commandHash replyHash).source lib ∧
          rngFor lib seed index ("exec:" ++ commandHash) replyHash =
            (RandomStream.exec seed index commandHash replyHash).source lib ∧
          rngFor lib seed index ("transport:v1:" ++ commandHash) replyHash =
            (RandomStream.transport seed index commandHash replyHash).source lib ∧
          rngFor lib seed index ("connection-fault:v1:" ++ commandHash) "" =
            (RandomStream.connectionFault seed index commandHash).source lib ∧
          topologyRng lib seed index commandHash replyHash =
            (RandomStream.topology seed index commandHash replyHash).source lib := by
  refine ⟨?_, draws_own_streams lib, ?_⟩
  · intro stream other h
    exact RandomStream.preimage_injective h
  · intro seed index commandHash replyHash
    exact ⟨rfl, rfl, rfl, rfl, rfl⟩

end EvilResp
