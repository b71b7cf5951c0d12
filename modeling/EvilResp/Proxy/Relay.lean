import EvilResp.Proxy.Steps

/-!
# Untouched replies

The filters and the settings gate every fault of an ordinary command.  Where they select
none, a standalone proxy forwards the command, plans the reply of the upstream as it is,
and goes on.

Main results:

- Theorem {lit}`deliver_plain`: the plain plan delivers its bytes, unless the writer fails.
- Theorem {lit}`Connection.relay_untouched`: a command that is not to be touched is
  relayed as it is, whatever else is configured.
-/

namespace EvilResp

open Library
open EvilResp.Resp

/-! ## Steady writers -/

/-- Every operation makes progress. -/
def Steady (script : List WriteEvent) : Prop :=
  ∀ event ∈ script, ∃ n, event = .accept (n + 1)

/-- A steady writer accepts everything, and stays steady. -/
theorem writeCounted_steady (script : List WriteEvent) :
    ∀ (fingerprints : ProtocolFingerprints) (bytes : Bytes), Steady script →
      (writeCounted script fingerprints bytes).result = .ok () ∧
      Steady (writeCounted script fingerprints bytes).script := by
  induction script with
  | nil =>
      intro fingerprints bytes hsteady
      cases bytes <;> exact ⟨rfl, hsteady⟩
  | cons event script ih =>
      intro fingerprints bytes hsteady
      cases bytes with
      | nil => exact ⟨rfl, hsteady⟩
      | cons b bytes =>
          rcases hsteady event List.mem_cons_self with ⟨n, rfl⟩
          exact ih _ _ fun later hlater => hsteady later (List.mem_cons_of_mem _ hlater)

theorem operate_steady {script : List WriteEvent} (h : Steady script) :
    (operate script).2 = .ok () := by
  cases script with
  | nil => rfl
  | cons event script =>
      rcases h event List.mem_cons_self with ⟨n, rfl⟩
      rfl

/-- The plain plan delivers its bytes in one chunk, unless the writer fails. -/
theorem deliver_plain (script : List WriteEvent) (fingerprints : ProtocolFingerprints)
    {bytes : Bytes} (hbytes : bytes ≠ []) :
    ∃ delivery, deliver script fingerprints bytes (.plain bytes.length) = some delivery ∧
      delivery.accepted <+: bytes ∧
      (delivery.failure = none → delivery.accepted = bytes) ∧
      (Steady script → delivery.failure = none) := by
  have hends : (DeliveryPlan.plain bytes.length).chunkEnds = [bytes.length] := by
    simp [DeliveryPlan.plain, hbytes]
  have hslice : slice bytes 0 bytes.length = some bytes := by simp [slice]
  have hplain : ∀ delivery, finishTruncated (.plain bytes.length) delivery = delivery := by
    intro delivery
    simp [finishTruncated, DeliveryPlan.plain]
  have hcounts := writeCounted_counts script fingerprints bytes
  have hsteady := writeCounted_steady script fingerprints bytes
  rcases hcounts with ⟨-, haccepted, hwhole⟩
  simp only [deliver, hends, deliverChunks, hslice, Option.bind_eq_bind, Option.bind_some,
    List.nil_append]
  cases hresult : (writeCounted script fingerprints bytes).result with
  | error error =>
      refine ⟨_, rfl, ?_, ?_, ?_⟩
      · rw [hplain]
        exact haccepted
      · rw [hplain]
        simp
      · intro h
        rw [(hsteady h).1] at hresult
        cases hresult
  | ok done =>
      rcases hflush : operate (writeCounted script fingerprints bytes).script with
        ⟨rest, error | done⟩
      · refine ⟨_, rfl, ?_, ?_, ?_⟩
        · rw [hplain]
          exact haccepted
        · rw [hplain]
          simp
        · intro h
          have hok := operate_steady (hsteady h).2
          rw [hflush] at hok
          cases hok
      · refine ⟨_, rfl, ?_, ?_, ?_⟩
        · rw [hplain]
          exact haccepted
        · intro _
          rw [hplain]
          exact hwhole hresult
        · intro _
          rw [hplain]

namespace Connection

/-! ## The gates -/

/-- Settings that select no fault for a command. -/
def Untouched (config : EvilConfig) (name : Option String) : Prop :=
  config.shouldMutateCommand name = false ∨
    config.mode = .off ∧ config.transport.enabled = false

variable {site : Site} {config : EvilConfig} {command : Command}

theorem transportEnabled_untouched (hsame : command.shouldMutate =
    config.shouldMutateCommand command.name) (h : Untouched config command.name) :
    transportEnabled config command = false := by
  rcases h with hfiltered | ⟨-, hdisabled⟩
  · simp [transportEnabled, hsame, hfiltered]
  · simp [transportEnabled, hdisabled]

theorem mutatesValues_untouched (hsame : command.shouldMutate =
    config.shouldMutateCommand command.name) (h : Untouched config command.name) :
    mutatesValues config command = false := by
  rcases h with hfiltered | ⟨hoff, -⟩
  · simp [mutatesValues, hsame, hfiltered]
  · simp [mutatesValues, hoff]

/-- Nothing is selected before the command is forwarded. -/
theorem not_skips_untouched (hstandalone : site.localSlots = none)
    (hsame : command.shouldMutate = config.shouldMutateCommand command.name)
    (h : Untouched config command.name) :
    preTopology site config command = some none ∧ beforePlan site config command = some none ∧
      ¬ (config.mode = .random ∧ command.shouldMutate = true) := by
  refine ⟨by simp [preTopology, hstandalone], ?_, ?_⟩
  · simp [beforePlan, transportEnabled_untouched hsame h]
  · rintro ⟨hrandom, hmutate⟩
    rcases h with hfiltered | ⟨hoff, -⟩
    · rw [hsame, hfiltered] at hmutate
      cases hmutate
    · rw [hoff] at hrandom
      cases hrandom

/-- A reply without a topology fault, whose values are kept and whose delivery is plain. -/
theorem relayResponse_of_gates {reply relayBytes : Bytes}
    (hrelay : normalizeClusterRedirection site.lib site.localSlots site.redirectionMap reply =
      .ok relayBytes)
    (htopology : relayTopology site config command relayBytes = some none)
    (hvalues : mutatesValues config command = false)
    (htransport : transportEnabled config command = false) (execCommands : Option (List String)) :
    relayResponse site config command execCommands reply = some {
      upstreamBytes := some reply
      reply := { bytes := relayBytes, mutations := [] }
      seedHash := "" } := by
  simp [relayResponse, hrelay, htopology, mutateRelayed, hvalues, htransport, baseReply]

/-- The response is the reply of the upstream. -/
theorem relayResponse_untouched (hstandalone : site.localSlots = none)
    (hsame : command.shouldMutate = config.shouldMutateCommand command.name)
    (h : Untouched config command.name) (execCommands : Option (List String)) (reply : Bytes) :
    relayResponse site config command execCommands reply = some {
      upstreamBytes := some reply
      reply := { bytes := reply, mutations := [] }
      seedHash := "" } := by
  apply relayResponse_of_gates
  · simp [normalizeClusterRedirection, hstandalone]
  · simp [relayTopology, hstandalone]
  · exact mutatesValues_untouched hsame h
  · exact transportEnabled_untouched hsame h

theorem deliveryPlan_untouched (hsame : command.shouldMutate =
    config.shouldMutateCommand command.name) (h : Untouched config command.name)
    (response : Response) : deliveryPlan site config command response =
      some (.plain response.reply.bytes.length) := by
  simp [deliveryPlan, transportEnabled_untouched hsame h]

/-! ## The exchange -/

/-- The reply of the upstream was relayed as it is. -/
structure Relayed (bytes reply : Bytes) (conn next : Connection) (entry : Entry) : Prop where
  history : next.history = conn.history ++ [entry]
  request : entry.request = bytes
  upstreamReply : entry.upstreamReply = some reply
  plan : entry.plan = some (.plain reply.length)
  chunks : (DeliveryPlan.plain reply.length).chunkEnds = [reply.length]
  accepted : entry.accepted <+: reply
  mutations : ∀ record, entry.record = some record →
    record.mutations = [] ∧ record.plannedWireBytes = reply
  whole : entry.terminal = false →
    entry.accepted = reply ∧ entry.record = none ∧ next.phase = .reading
  steady : Steady conn.script → entry.terminal = false

theorem relayed_deliverResponse (site : Site) (conn : Connection) (entry : Entry)
    (command : Command) {reply : Bytes} (hreply : reply ≠ [])
    (hupstream : entry.upstreamReply = some reply) :
    ∃ final, Relayed entry.request reply conn
      (conn.deliverResponse site entry command
        { upstreamBytes := some reply, reply := { bytes := reply, mutations := [] }, seedHash := "" }
        (.plain reply.length)) final ∧
      (conn.deliverResponse site entry command
        { upstreamBytes := some reply, reply := { bytes := reply, mutations := [] }, seedHash := "" }
        (.plain reply.length)).upstream = conn.upstream := by
  rcases deliver_plain conn.script conn.fingerprints hreply with
    ⟨delivery, hdeliver, haccepted, hwhole, hsteady⟩
  have hfault : (DeliveryPlan.plain reply.length).isFault = false := by
    simp [DeliveryPlan.isFault, DeliveryPlan.plain, hreply]
  simp only [deliverResponse, DeliveryPlan.wireBytes_plain, hdeliver, hfault]
  refine ⟨_, ⟨rfl, rfl, hupstream, rfl, ?_, haccepted, ?_, ?_, ?_⟩, rfl⟩
  · simp [DeliveryPlan.plain, hreply]
  · intro record hkept
    dsimp only at hkept
    split at hkept
    · cases hkept
      exact ⟨rfl, rfl⟩
    · cases hkept
  · intro hterminal
    have hfailure : delivery.failure = none := by
      simpa [DeliveryPlan.plain] using hterminal
    refine ⟨hwhole hfailure, by simp [hfailure], ?_⟩
    simp [finish, hfailure, DeliveryPlan.plain]
  · intro hscript
    simp [hsteady hscript, DeliveryPlan.plain]

/-- Forwarding a command that is not to be touched. -/
theorem relayed_forward (site : Site) (conn : Connection) (entry : Entry) (command : Command)
    {reply : Bytes} (hstandalone : site.localSlots = none)
    (hsame : command.shouldMutate = conn.config.shouldMutateCommand command.name)
    (huntouched : Untouched conn.config command.name)
    (hexchange : (conn.upstream.exchange site.network entry.request command.frame.argvLossy).2 =
      .ok reply) (hreply : reply ≠ []) :
    ∃ final, Relayed entry.request reply conn (conn.ordinary site entry command) final ∧
      (conn.ordinary site entry command).upstream =
        (conn.upstream.exchange site.network entry.request command.frame.argvLossy).1 := by
  rcases not_skips_untouched hstandalone hsame huntouched with ⟨hpre, hbefore, hrandom⟩
  rcases hresult : conn.upstream.exchange site.network entry.request command.frame.argvLossy with
    ⟨upstream, result⟩
  rw [hresult] at hexchange
  obtain rfl : result = .ok reply := hexchange
  simp only [ordinary, hpre, hbefore, if_neg hrandom, forward, hresult]
  rw [relayResponse_untouched hstandalone hsame huntouched, respond,
    deliveryPlan_untouched hsame huntouched]
  rcases relayed_deliverResponse site
    { conn with upstream, transaction := (conn.transaction.observe command.frame.argvLossy reply).1 }
    { entry with
      forwarded := conn.wrote upstream
      upstreamReply := some reply
      execCommands := (conn.transaction.observe command.frame.argvLossy reply).2 }
    command hreply rfl with ⟨final, hrelayed, hkept⟩
  exact ⟨final, ⟨hrelayed.history, hrelayed.request, hrelayed.upstreamReply, hrelayed.plan,
    hrelayed.chunks, hrelayed.accepted, hrelayed.mutations, hrelayed.whole, hrelayed.steady⟩, hkept⟩

/-- A command that is not to be touched is relayed as it is, in the two steps that accept
it and that allocate its index: on the sessions of the connection its bytes are written, once
and whole, and besides only identification commands; the reply is planned as one chunk without
extras, truncation or fault, and no mutation is recorded.  A client that takes what it is
offered receives exactly the reply, and the connection goes on. -/
theorem relay_untouched (site : Site) (conn : Connection) (shared later : Shared) (bytes : Bytes)
    (complete : Resp.readRawFrame bytes = .ok (bytes, [])) (command : Frame) (reply : Bytes)
    (hstandalone : site.localSlots = none) (hphase : conn.phase = .reading)
    (hepoch : conn.epoch = shared.resetEpoch) (hlater : conn.epoch = later.resetEpoch)
    (hparse : parseFrame bytes = .ok command) (hforeign : ¬ IsLocal site command)
    (huntouched : Untouched conn.config command.commandName)
    (hexchange : (conn.upstream.exchange site.network bytes command.argvLossy).2 = .ok reply)
    (hreply : Resp.readRawFrame reply = .ok (reply, [])) :
    ∃ waiting next entry,
      conn.live site (shared, .frame bytes complete) = some waiting ∧
      waiting.live site (later, .turn) = some next ∧
      Session.Wrote [⟨.client, bytes, bytes⟩] conn.upstream.writes next.upstream.writes ∧
      Relayed bytes reply conn next entry := by
  have hnonempty : reply ≠ [] := by
    rintro rfl
    exact absurd hreply (by decide +kernel)
  have hown := hforeign
  simp only [IsLocal, not_or, Bool.not_eq_true] at hown
  rcases hown with ⟨hprotocol, hchaos, hmonitor, hevil, -⟩
  let entry : Entry := { request := bytes, config := conn.config }
  let waiting : Connection := { conn.heard bytes with phase := .allocating entry command }
  have hwaiting : conn.live site (shared, .frame bytes complete) = some waiting := by
    simp [live, step, hphase, accept, hparse, hepoch, handle, hprotocol, hchaos, hmonitor, hevil,
      dispatch, hstandalone, waiting, entry]
  let indexed : Entry := { entry with index := some (conn.epoch, later.commandIds) }
  let ordered : Command := ordinaryCommand site conn.config later.commandIds bytes command
  have hturn : waiting.live site (later, .turn) = some (waiting.ordinary site indexed ordered) := by
    simp [live, step, waiting, Shared.allocate, heard, hlater, indexed, ordered, entry]
  rcases relayed_forward site waiting indexed ordered hstandalone rfl huntouched hexchange
    hnonempty with ⟨final, hrelayed, hupstream⟩
  refine ⟨waiting, _, final, hwaiting, hturn, ?_, ?_⟩
  · rw [hupstream]
    exact UpstreamConnection.wrote_of_exchange (Prod.ext rfl hexchange)
  · exact ⟨hrelayed.history, hrelayed.request, hrelayed.upstreamReply, hrelayed.plan,
      hrelayed.chunks, hrelayed.accepted, hrelayed.mutations, hrelayed.whole, hrelayed.steady⟩

/-- A command under the initial settings, on a session that acknowledges it. -/
theorem relay_untouched_ping :
    ∃ waiting next entry,
      (Connection.new .acknowledging {} [.accept 2, .accept 9]).live .acknowledging
        ({}, .inline "PING" rfl) = some waiting ∧
      waiting.live .acknowledging ({ commandIds := 7 }, .turn) = some next ∧
      Session.Wrote [⟨.client, asBytes "PING\r\n", asBytes "PING\r\n"⟩]
        (Connection.new .acknowledging {} []).upstream.writes next.upstream.writes ∧
      Relayed (asBytes "PING\r\n") (asBytes "+OK\r\n")
        (Connection.new .acknowledging {} [.accept 2, .accept 9]) next entry :=
  relay_untouched .acknowledging (Connection.new .acknowledging {} [.accept 2, .accept 9]) {}
    { commandIds := 7 } (asBytes "PING\r\n") (by decide +kernel) (.inline [asBytes "PING"])
    (asBytes "+OK\r\n") rfl rfl rfl rfl (by decide +kernel)
    (by unfold IsLocal; decide +kernel) (.inr ⟨rfl, by decide +kernel⟩) (by decide +kernel)
    (by decide +kernel)

end Connection

end EvilResp
