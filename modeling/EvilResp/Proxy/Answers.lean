import EvilResp.Proxy.Steps
import EvilResp.Proxy.Transport

/-!
# What becomes of a command

An ordinary command is answered: with the reply that was chosen for it, as it was planned, or
with the reply that says that the upstream is not available.  It is that only where the exchange
with the upstream failed.  Only a reply of the upstream that cannot be read ends the connection
without an answer, and nothing panics.

Main results:

- Theorem {lit}`Connection.answered_ordinary`: the answer to one ordinary command.
-/

namespace EvilResp

open Library
open EvilResp.Resp

/-! ## Replies -/

namespace Connection

/-- The reply before its values are changed, and the reply of the upstream it was made from. -/
inductive Bases (site : Site) (config : EvilConfig) (command : Command) :
    Option Bytes → MutatedReply → Prop where
  | redirected {mutated : TopologyMutation} :
      preTopology site config command = some (some mutated) →
      Bases site config command none (baseReply (some mutated) [])
  | relayed {reply relayBytes : Bytes} {topology : Option TopologyMutation} :
      normalizeClusterRedirection site.lib site.localSlots site.redirectionMap reply =
        .ok relayBytes →
      relayTopology site config command relayBytes = some topology →
      Bases site config command (some reply) (baseReply topology relayBytes)

/-- A reply that has to be read and that cannot be. -/
inductive Unreadable (site : Site) (config : EvilConfig) (command : Command) :
    Option Bytes → Prop where
  | reply {reply : Bytes} {failed : AppError} {error : RespError} :
      normalizeClusterRedirection site.lib site.localSlots site.redirectionMap reply =
        .error failed →
      parseFrame reply = .error error → Unreadable site config command (some reply)
  | relayed {reply relayBytes : Bytes} {error : RespError} :
      normalizeClusterRedirection site.lib site.localSlots site.redirectionMap reply =
        .ok relayBytes →
      relayTopology site config command relayBytes = none →
      parseFrame relayBytes = .error error → Unreadable site config command (some reply)
  | base {upstream : Option Bytes} {base : MutatedReply} {error : RespError} :
      Bases site config command upstream base →
      mutatesValues config command = true ∨ transportEnabled config command = true →
      parseFrame base.bytes = .error error → Unreadable site config command upstream

/-- The reply that is chosen for a command, with its plan. -/
inductive Chosen (site : Site) (config : EvilConfig) (command : Command)
    (execCommands : Option (List String)) : Option Bytes → Response → DeliveryPlan → Prop where
  | fault {plan : DeliveryPlan} :
      beforePlan site config command = some (some plan) →
      Chosen site config command execCommands none
        { upstreamBytes := none, reply := { bytes := [], mutations := [] }, seedHash := "" } plan
  | generated {pre : Option TopologyMutation} {response : Response} {plan : DeliveryPlan} :
      config.mode = .random → command.shouldMutate = true →
      preTopology site config command = some pre →
      randomResponse site config command pre = some response →
      deliveryPlan site config command response = some plan →
      Chosen site config command execCommands none response plan
  | worked {upstream : Option Bytes} {base : MutatedReply} {response : Response}
      {plan : DeliveryPlan} :
      Bases site config command upstream base →
      mutateRelayed site config command upstream execCommands base = some response →
      deliveryPlan site config command response = some plan →
      Chosen site config command execCommands upstream response plan

/-- What the upstream told about a command: nothing, as it was not asked, or its reply, which ends
a transaction or not. -/
inductive Told (site : Site) (conn : Connection) (request : Bytes) (command : Command) :
    Option Bytes → Option (List String) → UpstreamConnection → Prop where
  | skipped :
      Skips site conn.config command → Told site conn request command none none conn.upstream
  | replied {upstream : UpstreamConnection} {reply : Bytes} :
      ¬ Skips site conn.config command →
      conn.upstream.exchange site.network request command.frame.argvLossy = (upstream, .ok reply) →
      Told site conn request command (some reply)
        (conn.transaction.observe command.frame.argvLossy reply).2 upstream

/-- What the record of an entry tells. -/
structure Describes (site : Site) (entry : Entry) (command : Command) (response : Response)
    (plan : DeliveryPlan) (failure : Option (String × IoError)) (record : ReproRecord) : Prop where
  seed : record.seed = entry.config.seed
  mode : record.mode = entry.config.mode
  commandIndex : record.commandIndex = command.index
  command : record.command = entry.request
  upstream : record.upstream = entry.upstreamReply
  mutations : record.mutations = response.reply.mutations
  reply : record.response = response.reply.bytes
  deliveryPlan : record.deliveryPlan = plan
  planned : record.plannedWireBytes = plan.wireBytes record.response
  written : record.deliveryOutcome.bytesWritten = entry.accepted.length
  hash : record.deliveryOutcome.writtenBytesHash = deterministicHash site.lib entry.accepted
  errorStage : record.deliveryOutcome.errorStage = failure.map Prod.fst
  errorKind : record.deliveryOutcome.errorKind = failure.map (·.2.kind.debugName)

/-- The client's writer took the planned bytes of a reply as it takes them, and the rest is on
record. -/
structure Delivers (site : Site) (conn : Connection) (entry : Entry) (command : Command)
    (response : Response) (plan : DeliveryPlan) (delivery : Delivery) : Prop where
  fits : plan.Matches response.reply.bytes
  delivered : deliver conn.script conn.fingerprints (plan.wireBytes response.reply.bytes) plan =
    some delivery
  planned : entry.plan = some plan
  accepted : entry.accepted = delivery.accepted
  begins : entry.accepted <+: plan.wireBytes response.reply.bytes
  whole : delivery.failure = none → entry.accepted = plan.wireBytes response.reply.bytes
  terminal : entry.terminal = true ↔ delivery.failure.isSome = true ∨
    plan.connectionFault.isSome = true ∨ plan.truncateAt.isSome = true
  recorded : entry.record.isSome = true ↔
    response.reply.mutations ≠ [] ∨ plan.isFault = true ∨ delivery.failure.isSome = true
  described : ∀ record, entry.record = some record →
    Describes site entry command response plan delivery.failure record

/-- The client was told that the upstream is not available, as far as its writer took it. -/
structure Refused (conn : Connection) (entry : Entry) : Prop where
  unreplied : entry.upstreamReply = none
  accepted : entry.accepted =
    (writeCounted conn.script conn.fingerprints unavailableReply).accepted
  begins : entry.accepted <+: unavailableReply
  whole : entry.terminal = false → entry.accepted = unavailableReply
  record : entry.record = none

/-- What became of an ordinary command, with the connection before and after it. -/
inductive Answered (site : Site) (conn : Connection) (entry : Entry) (command : Command)
    (next : Connection) : Prop where
  | unreadable :
      Told site conn entry.request command entry.upstreamReply entry.execCommands next.upstream →
      Unreadable site entry.config command entry.upstreamReply → entry.accepted = [] →
      entry.record = none → Answered site conn entry command next
  | unavailable {error : AppError} :
      ¬ Skips site conn.config command →
      conn.upstream.exchange site.network entry.request command.frame.argvLossy =
        (next.upstream, .error error) →
      Refused conn entry → Answered site conn entry command next
  | delivered {response : Response} {plan : DeliveryPlan} {delivery : Delivery} :
      Told site conn entry.request command entry.upstreamReply entry.execCommands next.upstream →
      Chosen site entry.config command entry.execCommands entry.upstreamReply response plan →
      Delivers site conn entry command response plan delivery →
      Answered site conn entry command next

/-- The part of an entry that is settled before its delivery. -/
structure SameCommand (entry final : Entry) : Prop where
  request : final.request = entry.request
  config : final.config = entry.config
  index : final.index = entry.index

variable {site : Site} {conn : Connection} {entry : Entry} {command : Command}

/-- A connection that finished an entry with its answer. -/
def Answers (site : Site) (conn : Connection) (entry : Entry) (command : Command)
    (next : Connection) : Prop :=
  ∃ final, next.history = conn.history ++ [final] ∧ SameCommand entry final ∧
    Answered site conn final command next

/-- An entry that got the reply of the upstream is still the entry of its command. -/
theorem Answers.same {next : Connection} {other : Entry}
    (h : Answers site conn other command next) (hsame : SameCommand entry other) :
    Answers site conn entry command next := by
  rcases h with ⟨final, hnext, hfinal, hanswered⟩
  exact ⟨final, hnext, ⟨hfinal.request.trans hsame.request, hfinal.config.trans hsame.config,
    hfinal.index.trans hsame.index⟩, hanswered⟩

/-- A reply is delivered by a connection that differs in what the upstream told. -/
theorem answers_deliverResponse {upstream : UpstreamConnection} {transaction : TransactionCommands}
    {response : Response} {plan : DeliveryPlan} (hconfig : entry.config = conn.config)
    (hupstream : response.upstreamBytes = entry.upstreamReply)
    (htold : Told site conn entry.request command entry.upstreamReply entry.execCommands upstream)
    (hchosen :
      Chosen site entry.config command entry.execCommands entry.upstreamReply response plan)
    (hfits : plan.Matches response.reply.bytes) :
    Answers site conn entry command
      ({ conn with upstream, transaction }.deliverResponse site entry command response plan) := by
  rcases hfits.delivers conn.script conn.fingerprints with ⟨delivery, hdelivery⟩
  rcases deliver_prefix hfits.fits hdelivery with ⟨hbegins, hwhole⟩
  have htaken := List.prefix_iff_eq_take.mp hbegins
  simp only [deliverResponse, hdelivery]
  have hdelivers : ∀ (final : Entry) (next : Connection), next.upstream = upstream →
      SameCommand entry final → final.upstreamReply = entry.upstreamReply →
      final.execCommands = entry.execCommands →
      Delivers site conn final command response plan delivery →
      Answered site conn final command next := by
    intro final next hnext hsame hreply hcommands hfinal
    rw [← hsame.request, ← hreply, ← hcommands, ← hnext] at htold
    rw [← hsame.config, ← hreply, ← hcommands] at hchosen
    exact .delivered htold hchosen hfinal
  refine ⟨_, rfl, ⟨rfl, rfl, rfl⟩, ?_⟩
  apply hdelivers
  · rfl
  · exact ⟨rfl, rfl, rfl⟩
  · rfl
  · rfl
  · refine ⟨hfits, hdelivery, rfl, rfl, hbegins, hwhole, ?_, ?_, ?_⟩
    · simp
    · simp [or_assoc]
    · intro record hrecord
      rw [Option.ite_none_right_eq_some] at hrecord
      obtain rfl := Option.some.inj hrecord.2
      exact {
        seed := by rw [hconfig]
        mode := by rw [hconfig]
        commandIndex := rfl
        command := rfl
        upstream := hupstream
        mutations := rfl
        reply := rfl
        deliveryPlan := rfl
        planned := rfl
        written := rfl
        hash := congrArg (deterministicHash site.lib) htaken.symm
        errorStage := rfl
        errorKind := rfl }

/-! ## Nothing panics -/

theorem deliveryPlan_matches (h : conn.config.transport.Reached) (response : Response) :
    ∃ plan, deliveryPlan site conn.config command response = some plan ∧
      plan.Matches response.reply.bytes := by
  unfold deliveryPlan
  split_ifs
  · exact TransportConfig.plan_of_all (h.planDraws response.reply.bytes) site.lib conn.config.seed
      (UInt64.ofNat command.index) command.hash response.seedHash
  · have hplain := planned_plain conn.config.transport response.reply.bytes.length
    exact ⟨_, rfl, hplain.matches⟩

theorem beforePlan_matches (h : conn.config.transport.Reached) :
    ∃ before, beforePlan site conn.config command = some before ∧
      ∀ plan, before = some plan → plan.Matches [] := by
  unfold beforePlan
  split_ifs
  · exact ⟨none, rfl, fun plan hplan => nomatch hplan⟩
  · exact TransportConfig.beforePlan_of_all h.beforeDraws site.lib conn.config.seed
      (UInt64.ofNat command.index) command.hash

theorem preTopology_isSome (site : Site) (config : EvilConfig) (command : Command) :
    ∃ pre, preTopology site config command = some pre := by
  unfold preTopology
  split
  · exact ⟨none, rfl⟩
  · split_ifs
    · exact ⟨none, rfl⟩
    · exact configuredRedirection_isSome _ _ _

/-- Only a reply that cannot be read has no changed form. -/
theorem mutateRelayed_cases (site : Site) (config : EvilConfig) (command : Command)
    (upstream : Option Bytes) (execCommands : Option (List String)) (base : MutatedReply) :
    (∃ response, mutateRelayed site config command upstream execCommands base = some response ∧
      response.upstreamBytes = upstream) ∨
    mutateRelayed site config command upstream execCommands base = none ∧
      (mutatesValues config command = true ∨ transportEnabled config command = true) ∧
      ∃ error, parseFrame base.bytes = .error error := by
  unfold mutateRelayed
  by_cases hchanged : mutatesValues config command = true ∨ transportEnabled config command = true
  · rw [if_pos hchanged]
    cases hparse : parseFrame base.bytes with
    | error error => exact .inr ⟨rfl, hchanged, error, rfl⟩
    | ok frame =>
        dsimp only
        by_cases hvalues : mutatesValues config command = true
        · rcases mutateCommandReply_isSome site.lib config (UInt64.ofNat command.index) command.name
            command.hash (seedHash site.lib
              (canonicalInput config.canonicalization execCommands command.name frame))
            (canonicalInput config.canonicalization execCommands command.name frame) with
            ⟨mutated, hmutated⟩
          rw [if_pos hvalues, hmutated]
          exact .inl ⟨_, rfl, rfl⟩
        · rw [if_neg hvalues]
          exact .inl ⟨_, rfl, rfl⟩
  · rw [if_neg hchanged]
    exact .inl ⟨_, rfl, rfl⟩

/-- The legacy faults fail only with a reply that cannot be read. -/
theorem legacyTopology_cases (site : Site) (config : EvilConfig) (command : Command)
    (relayBytes : Option Bytes) (slots : Frame) :
    (∃ topology, legacyTopology site config command relayBytes slots = some topology) ∨
      ∃ bytes error, relayBytes = some bytes ∧ parseFrame bytes = .error error := by
  unfold legacyTopology
  split
  · rename_i error hfailed
    simp only [maybeMutateTopology] at hfailed
    split_ifs at hfailed
    cases relayBytes with
    | none => cases hfailed
    | some bytes =>
        cases hparse : parseFrame bytes with
        | error error => exact .inr ⟨bytes, error, rfl, hparse⟩
        | ok frame => simp [upstreamRedirection, hparse, Except.mapError, Except.map, bind,
            Except.bind] at hfailed
  · rename_i outcome houtcome
    rcases maybeMutateTopology_isSome houtcome with ⟨mutation, rfl⟩
    exact .inl ⟨mutation, rfl⟩

theorem randomResponse_isSome (site : Site) (config : EvilConfig) (command : Command)
    (pre : Option TopologyMutation) :
    ∃ response, randomResponse site config command pre = some response ∧
      response.upstreamBytes = none := by
  have hrandom : ∃ reply, randomReply site.lib config (UInt64.ofNat command.index) command.hash =
      some reply := by
    rcases Draw.run_of_all config.generator.safe_frame
      (rngFor site.lib config.seed (UInt64.ofNat command.index) command.hash "") with
      ⟨frame, hframe, -⟩
    exact ⟨_, by rw [randomReply, hframe]; rfl⟩
  rcases hrandom with ⟨reply, hreply⟩
  unfold randomResponse
  cases pre with
  | some mutated => exact ⟨_, rfl, rfl⟩
  | none =>
      cases hslots : site.localSlots with
      | none =>
          simp only [Option.bind_eq_bind, Option.bind_some, hreply]
          exact ⟨_, rfl, rfl⟩
      | some slots =>
          rcases legacyTopology_cases site config command none slots with ⟨topology, htopology⟩ |
            ⟨bytes, error, hbytes, -⟩
          · simp only [htopology, Option.bind_eq_bind, Option.bind_some]
            cases topology with
            | some mutated => exact ⟨_, rfl, rfl⟩
            | none =>
                simp only [hreply, Option.bind_some]
                exact ⟨_, rfl, rfl⟩
          · cases hbytes

theorem relayTopology_eq_none {relayBytes : Bytes}
    (h : relayTopology site conn.config command relayBytes = none) :
    ∃ error, parseFrame relayBytes = .error error := by
  unfold relayTopology at h
  split at h
  · cases h
  · rename_i slots hslots
    split_ifs at h
    · rcases configuredRedirection_isSome site.lib conn.config
        (redirectContext site command (some relayBytes) slots) with ⟨mutation, hmutation⟩
      rw [hmutation] at h
      cases h
    · rcases legacyTopology_cases site conn.config command (some relayBytes) slots with
        ⟨topology, htopology⟩ | ⟨bytes, error, hbytes, hparse⟩
      · rw [htopology] at h
        cases h
      · obtain rfl := Option.some.inj hbytes
        exact ⟨error, hparse⟩

theorem normalize_eq_error {reply : Bytes} {failed : AppError}
    (h : normalizeClusterRedirection site.lib site.localSlots site.redirectionMap reply =
      .error failed) : ∃ error, parseFrame reply = .error error := by
  unfold normalizeClusterRedirection at h
  split_ifs at h
  cases hparse : parseFrame reply with
  | error error => exact ⟨error, rfl⟩
  | ok frame => simp [hparse, Except.mapError, bind, Except.bind] at h

/-! ## Answers -/

/-- An entry of an ordinary command that nothing was done for yet. -/
structure Waiting (conn : Connection) (entry : Entry) : Prop where
  config : entry.config = conn.config
  upstreamReply : entry.upstreamReply = none
  execCommands : entry.execCommands = none
  accepted : entry.accepted = []
  record : entry.record = none

/-- A reply that is chosen is delivered. -/
theorem answers_respond (conn : Connection) (entry : Entry) {upstream : UpstreamConnection}
    {transaction : TransactionCommands} (response : Option Response)
    (hsettings : conn.config.transport.Reached)
    (hconfig : entry.config = conn.config) (haccepted : entry.accepted = [])
    (hrecord : entry.record = none)
    (htold : Told site conn entry.request command entry.upstreamReply entry.execCommands upstream)
    (hnone : response = none → Unreadable site entry.config command entry.upstreamReply)
    (hsome : ∀ made plan, response = some made →
      deliveryPlan site conn.config command made = some plan →
      made.upstreamBytes = entry.upstreamReply ∧
        Chosen site entry.config command entry.execCommands entry.upstreamReply made plan) :
    Answers site conn entry command
      ({ conn with upstream, transaction }.respond site entry command response) := by
  cases response with
  | none =>
      exact ⟨entry, rfl, ⟨rfl, rfl, rfl⟩, .unreadable htold (hnone rfl) haccepted hrecord⟩
  | some made =>
      rcases @deliveryPlan_matches site conn command hsettings made with ⟨plan, hplan, hfits⟩
      rcases hsome made plan rfl hplan with ⟨hupstream, hchosen⟩
      simp only [respond, hplan]
      exact answers_deliverResponse hconfig hupstream htold hchosen hfits

/-- A command whose exchange failed is refused. -/
theorem answers_unavailable (conn : Connection) (entry : Entry) {upstream : UpstreamConnection}
    {error : AppError} (hskips : ¬ Skips site conn.config command)
    (hexchange : conn.upstream.exchange site.network entry.request command.frame.argvLossy =
      (upstream, .error error))
    (hupstream : entry.upstreamReply = none) (hrecord : entry.record = none) :
    Answers site conn entry command ({ conn with upstream }.unavailable entry) := by
  rcases writeCounted_counts conn.script conn.fingerprints unavailableReply with
    ⟨-, hbegins, hwhole⟩
  simp only [unavailable, countedReply]
  cases hresult : (writeCounted conn.script conn.fingerprints unavailableReply).result with
  | ok done =>
      refine ⟨_, rfl, ⟨rfl, rfl, rfl⟩, .unavailable hskips hexchange
        ⟨hupstream, rfl, hbegins, fun _ => ?_, hrecord⟩⟩
      exact hwhole hresult
  | error error =>
      refine ⟨_, rfl, ⟨rfl, rfl, rfl⟩, .unavailable hskips hexchange
        ⟨hupstream, rfl, hbegins, fun h => ?_, hrecord⟩⟩
      cases h

/-- A base reply is changed, unless it cannot be read. -/
theorem worked_cases {upstream : Option Bytes} {base : MutatedReply}
    (hbase : Bases site conn.config command upstream base) (execCommands : Option (List String)) :
    (mutateRelayed site conn.config command upstream execCommands base = none →
      Unreadable site conn.config command upstream) ∧
    ∀ made plan, mutateRelayed site conn.config command upstream execCommands base = some made →
      deliveryPlan site conn.config command made = some plan →
      made.upstreamBytes = upstream ∧
        Chosen site conn.config command execCommands upstream made plan := by
  rcases mutateRelayed_cases site conn.config command upstream execCommands base with
    ⟨response, hresponse, hupstream⟩ | ⟨hnone, hchanged, error, hparse⟩
  · rw [hresponse]
    refine ⟨fun h => (nomatch h), fun made plan hmade hplan => ?_⟩
    obtain rfl := Option.some.inj hmade
    exact ⟨hupstream, .worked hbase hresponse hplan⟩
  · rw [hnone]
    exact ⟨fun _ => .base hbase hchanged hparse, fun made plan hmade => nomatch hmade⟩

/-- A reply of the upstream is changed, unless it cannot be read. -/
theorem relayResponse_cases (site : Site) (conn : Connection) (command : Command)
    (execCommands : Option (List String)) (reply : Bytes) :
    (relayResponse site conn.config command execCommands reply = none →
      Unreadable site conn.config command (some reply)) ∧
    ∀ made plan, relayResponse site conn.config command execCommands reply = some made →
      deliveryPlan site conn.config command made = some plan →
      made.upstreamBytes = some reply ∧
        Chosen site conn.config command execCommands (some reply) made plan := by
  unfold relayResponse
  cases hrelay : normalizeClusterRedirection site.lib site.localSlots site.redirectionMap reply with
  | error failed =>
      rcases normalize_eq_error hrelay with ⟨error, hparse⟩
      exact ⟨fun _ => .reply hrelay hparse, fun made plan hmade => nomatch hmade⟩
  | ok relayBytes =>
      dsimp only
      cases htopology : relayTopology site conn.config command relayBytes with
      | none =>
          rcases relayTopology_eq_none htopology with ⟨error, hparse⟩
          exact ⟨fun _ => .relayed hrelay htopology hparse, fun made plan hmade => nomatch hmade⟩
      | some topology => exact worked_cases (.relayed hrelay htopology) execCommands

theorem answers_forward (hsettings : conn.config.transport.Reached) (hentry : Waiting conn entry)
    (hskips : ¬ Skips site conn.config command) :
    Answers site conn entry command (conn.forward site entry command) := by
  unfold forward
  dsimp only
  rcases hexchange : conn.upstream.exchange site.network entry.request command.frame.argvLossy with
    ⟨upstream, error | reply⟩
  · have hanswers := answers_unavailable conn { entry with forwarded := conn.wrote upstream }
      hskips hexchange hentry.upstreamReply hentry.record
    exact hanswers.same ⟨rfl, rfl, rfl⟩
  · rcases relayResponse_cases site conn command
      (conn.transaction.observe command.frame.argvLossy reply).2 reply with ⟨hnone, hsome⟩
    have hanswers := @answers_respond site command conn
      { entry with
        forwarded := conn.wrote upstream
        upstreamReply := some reply
        execCommands := (conn.transaction.observe command.frame.argvLossy reply).2 }
      upstream (conn.transaction.observe command.frame.argvLossy reply).1
      (relayResponse site conn.config command
        (conn.transaction.observe command.frame.argvLossy reply).2 reply) hsettings hentry.config
      hentry.accepted hentry.record (.replied hskips hexchange) ?_ ?_
    · exact hanswers.same ⟨rfl, rfl, rfl⟩
    · rw [hentry.config]
      exact hnone
    · rw [hentry.config]
      exact hsome

/-- An ordinary command is answered. -/
theorem answered_ordinary (hsettings : conn.config.transport.Reached)
    (hentry : Waiting conn entry) :
    Answers site conn entry command (conn.ordinary site entry command) := by
  rcases preTopology_isSome site conn.config command with ⟨pre, hpre⟩
  rcases @beforePlan_matches site conn command hsettings with ⟨before, hbefore, hfits⟩
  have htold : Skips site conn.config command →
      Told site conn entry.request command entry.upstreamReply entry.execCommands
        conn.upstream := by
    intro hskips
    rw [hentry.upstreamReply, hentry.execCommands]
    exact .skipped hskips
  have hrespond : ∀ {response : Option Response}, Skips site conn.config command →
      (response = none → Unreadable site conn.config command none) →
      (∀ made plan, response = some made → deliveryPlan site conn.config command made = some plan →
        made.upstreamBytes = none ∧
          Chosen site conn.config command entry.execCommands none made plan) →
      Answers site conn entry command (conn.respond site entry command response) := by
    intro response hskips hnone hsome
    rw [← hentry.config, ← hentry.upstreamReply] at hnone
    apply answers_respond conn entry response hsettings hentry.config hentry.accepted
      hentry.record (htold hskips) hnone
    intro made plan hmade hplan
    rw [hentry.config, hentry.upstreamReply]
    exact hsome made plan hmade hplan
  simp only [ordinary, hpre, hbefore]
  cases before with
  | some plan =>
      apply answers_deliverResponse hentry.config hentry.upstreamReply.symm
        (htold (.inl ⟨plan, hbefore⟩))
      · rw [hentry.config, hentry.upstreamReply]
        exact .fault hbefore
      · exact hfits plan rfl
  | none =>
      dsimp only
      split_ifs with hrandom
      · rcases randomResponse_isSome site conn.config command pre with
          ⟨response, hresponse, hupstream⟩
        rw [hresponse]
        apply hrespond (.inr (.inr hrandom))
        · exact fun h => nomatch h
        · intro made plan hmade hplan
          obtain rfl := Option.some.inj hmade
          exact ⟨hupstream, .generated hrandom.1 hrandom.2 hpre hresponse hplan⟩
      · cases pre with
        | some mutated =>
            rcases worked_cases (.redirected hpre) none with ⟨hnone, hsome⟩
            apply hrespond (.inr (.inl ⟨mutated, hpre⟩)) hnone
            rw [hentry.execCommands]
            exact hsome
        | none =>
            apply answers_forward hsettings hentry
            simpa [Skips, hpre, hbefore] using hrandom

end Connection

end EvilResp
