import EvilResp.Upstream.Session

/-!
# The upstream connection

A failed session is dropped at once and replaced when the next command is to be
forwarded.  A command is never retried, since a missing reply does not imply that it
was not executed.

Main results:

- Theorem {lit}`UpstreamConnection.exchange_inStep`: over any run a session that is kept
  has one reply read for each command written, an accepted reply answers the command
  of its own call, and a failed call leaves no session.
- Theorem {lit}`UpstreamConnection.exchange_writes`: on all sessions together, a call writes
  its command at most once, and otherwise only identification commands.
-/

namespace EvilResp

open Library
open EvilResp.Resp

/-- What each attempt to connect meets: a failure, or the other end of a stream. -/
abbrev Network := Nat → AppResult Link

/-- The connection.  The number of attempts tells which one is next, and the sessions that
were dropped are kept as its history. -/
structure UpstreamConnection where
  attempts : Nat := 0
  session : Option Session := none
  dropped : List Session := []

/-- The reply while the upstream cannot be reached. -/
def unavailableReply : Bytes :=
  asBytes ("-ERR evilresp upstream unavailable; command outcome unknown; " ++
    "upstream session reset; retry on next command\r\n")

namespace UpstreamConnection

/-- Open a stream and identify. -/
def connect (network : Network) (attempt : Nat) : Except Lost Session := do
  let link ← (network attempt).mapError fun error => { error }
  Session.applyIdentity { link }

/-- The first attempt; a failure is not an error yet. -/
def new (network : Network) : UpstreamConnection :=
  match connect network 0 with
  | .ok session => { attempts := 1, session := some session }
  | .error lost => { attempts := 1, dropped := lost.session.toList }

/-- The session of the next command, and the connection after a possible attempt. -/
def opened (network : Network) (upstream : UpstreamConnection) :
    UpstreamConnection × AppResult Session :=
  match upstream.session with
  | some session => (upstream, .ok session)
  | none =>
      let attempts := upstream.attempts + 1
      match connect network upstream.attempts with
      | .ok session => ({ upstream with attempts }, .ok session)
      | .error lost =>
          ({ upstream with attempts, dropped := upstream.dropped ++ lost.session.toList },
            .error lost.error)

/-- Forward one command and read its reply. -/
def exchange (network : Network) (upstream : UpstreamConnection) (command : Bytes)
    (argv : List String) : UpstreamConnection × AppResult Bytes :=
  match upstream.opened network with
  | (upstream, .error error) => (upstream, .error error)
  | (upstream, .ok session) =>
      match session.exchange command argv with
      | .ok (session, reply) => ({ upstream with session := some session }, .ok reply)
      -- Both halves are dropped, and a partial reply with them.
      | .error lost =>
          ({ upstream with session := none, dropped := upstream.dropped ++ lost.session.toList },
            .error lost.error)

/-- The connection after a sequence of calls. -/
def after (network : Network) (calls : List (Bytes × List String)) : UpstreamConnection :=
  calls.foldl (fun upstream call => (upstream.exchange network call.1 call.2).1) (new network)

/-! ## Alignment -/

/-- A session that is kept is aligned. -/
def InStep (upstream : UpstreamConnection) : Prop :=
  ∀ session, upstream.session = some session → session.Aligned

/-- A session that is opened is identified on a stream of the network. -/
theorem connect_cases {network : Network} {attempt : Nat} {session : Session}
    (h : connect network attempt = .ok session) :
    ∃ link, network attempt = .ok link ∧ Session.applyIdentity { link } = .ok session := by
  rcases bind_eq_ok_iff.mp h with ⟨link, hlink, hidentity⟩
  refine ⟨link, ?_, hidentity⟩
  cases hnetwork : network attempt with
  | error error => simp [hnetwork, Except.mapError] at hlink
  | ok other => simpa [hnetwork, Except.mapError] using hlink

/-- The session of a new connection was opened by the first attempt. -/
theorem session_new {network : Network} {session : Session}
    (h : (new network).session = some session) : connect network 0 = .ok session := by
  unfold new at h
  cases hconnect : connect network 0 with
  | error lost => simp [hconnect] at h
  | ok opened =>
      rw [hconnect] at h
      cases h
      rfl

/-- The session of a call was kept, or it is opened now. -/
theorem opened_cases {network : Network} {upstream : UpstreamConnection} {session : Session}
    (h : (upstream.opened network).2 = .ok session) :
    upstream.session = some session ∨
      upstream.session = none ∧ connect network upstream.attempts = .ok session := by
  unfold opened at h
  cases hkept : upstream.session with
  | some kept =>
      rw [hkept] at h
      cases h
      exact .inl rfl
  | none =>
      simp only [hkept] at h
      split at h
      · rename_i opened hconnect
        cases h
        exact .inr ⟨rfl, hconnect⟩
      · cases h

theorem connect_aligned {network : Network} {attempt : Nat} {session : Session}
    (h : connect network attempt = .ok session) : session.Aligned := by
  rcases connect_cases h with ⟨link, -, hidentity⟩
  have hfresh : Session.Aligned { link } := ⟨rfl, .nil, rfl, rfl⟩
  exact (Session.applyIdentity_aligned hfresh hidentity).1

theorem inStep_new (network : Network) : (new network).InStep := by
  intro session hsession
  exact connect_aligned (session_new hsession)

theorem InStep.opened {network : Network} {upstream : UpstreamConnection} {session : Session}
    (hupstream : upstream.InStep) (h : (upstream.opened network).2 = .ok session) :
    session.Aligned := by
  rcases opened_cases h with hkept | ⟨-, hconnect⟩
  · exact hupstream session hkept
  · exact connect_aligned hconnect

/-- What one call does: no session could be opened, the exchange failed, or the reply
was read. -/
theorem exchange_cases {network : Network} {upstream next : UpstreamConnection} {command : Bytes}
    {argv : List String} {result : AppResult Bytes}
    (h : upstream.exchange network command argv = (next, result)) :
    (upstream.session = none ∧ next.session = none ∧
      ∃ error, (upstream.opened network).2 = .error error ∧ result = .error error) ∨
    ∃ session, (upstream.opened network).2 = .ok session ∧
      ((next.session = none ∧ ∃ error, result = .error error) ∨
        ∃ kept reply, session.exchange command argv = .ok (kept, reply) ∧
          next.session = some kept ∧ result = .ok reply) := by
  have hsession : ∀ error, (upstream.opened network).2 = .error error →
      upstream.session = none ∧ (upstream.opened network).1.session = none := by
    intro error herror
    unfold opened at herror ⊢
    cases hkept : upstream.session with
    | none =>
        refine ⟨rfl, ?_⟩
        dsimp only
        split <;> rfl
    | some kept =>
        rw [hkept] at herror
        cases herror
  unfold exchange at h
  rcases hopened : upstream.opened network with ⟨connected, error | session⟩
  · rw [hopened] at h hsession
    cases h
    rcases hsession error rfl with ⟨hbefore, hafter⟩
    exact .inl ⟨hbefore, hafter, error, rfl, rfl⟩
  · rw [hopened] at h
    refine .inr ⟨session, rfl, ?_⟩
    cases hexchange : session.exchange command argv with
    | error lost =>
        simp only [hexchange] at h
        cases h
        exact .inl ⟨rfl, lost.error, rfl⟩
    | ok pair =>
        rcases pair with ⟨kept, reply⟩
        simp only [hexchange] at h
        cases h
        exact .inr ⟨kept, reply, rfl, rfl, rfl⟩

theorem InStep.exchange {network : Network} {upstream : UpstreamConnection}
    (hupstream : upstream.InStep) (command : Bytes) (argv : List String) :
    (upstream.exchange network command argv).1.InStep := by
  intro session hsession
  rcases hresult : upstream.exchange network command argv with ⟨next, result⟩
  rw [hresult] at hsession
  rcases exchange_cases hresult with ⟨-, hnone, -⟩ | ⟨opened, hopened, hrest⟩
  · rw [hnone] at hsession
    cases hsession
  · rcases hrest with ⟨hnone, -⟩ | ⟨kept, reply, hexchange, hkept, -⟩
    · rw [hnone] at hsession
      cases hsession
    · rw [hkept] at hsession
      cases hsession
      exact (Session.exchange_aligned (hupstream.opened hopened) hexchange).1

theorem inStep_after (network : Network) (calls : List (Bytes × List String)) :
    (after network calls).InStep := by
  have hrun : ∀ {upstream : UpstreamConnection}, upstream.InStep →
      (calls.foldl (fun upstream call => (upstream.exchange network call.1 call.2).1)
        upstream).InStep := by
    induction calls with
    | nil =>
        intro upstream hupstream
        exact hupstream
    | cons call calls ih =>
        intro upstream hupstream
        exact ih (hupstream.exchange call.1 call.2)
  exact hrun (inStep_new network)

/-- Over any run: a session that is kept has one reply read for each command written
and nothing left unread; an accepted reply is the upstream's answer to the command of
its own call, which follows everything written before it; a failed call leaves no
session. -/
theorem exchange_inStep (network : Network) (calls : List (Bytes × List String))
    (command : Bytes) (argv : List String) :
    let before := after network calls
    let (next, result) := before.exchange network command argv
    (∀ session, before.session = some session ∨ next.session = some session →
      session.written.length = session.received.length ∧ session.unread = []) ∧
    (∀ reply, result = .ok reply → ∃ opened session later,
      (before.opened network).2 = .ok opened ∧ next.session = some session ∧
      session.link = opened.link ∧ session.written = opened.written ++ [command] ++ later ∧
      (∀ own ∈ later, own ∈ Session.commands.map Frame.encode) ∧
      opened.link.Answers (opened.written ++ [command]) reply) ∧
    ∀ error, result = .error error → next.session = none := by
  have hbefore : (after network calls).InStep := inStep_after network calls
  have hnext : ((after network calls).exchange network command argv).1.InStep :=
    hbefore.exchange command argv
  rcases hcall : (after network calls).exchange network command argv with ⟨next, result⟩
  rw [hcall] at hnext
  have hcases := exchange_cases hcall
  simp only [hcall]
  refine ⟨?_, ?_, ?_⟩
  · intro session hsession
    have haligned : session.Aligned := hsession.elim (hbefore session) (hnext session)
    exact ⟨haligned.received.length_eq, haligned.unread⟩
  · rintro reply rfl
    rcases hcases with ⟨-, -, error, -, herror⟩ | ⟨opened, hopened, ⟨-, error, herror⟩ |
        ⟨kept, read, hexchange, hkept, hresult⟩⟩
    · cases herror
    · cases herror
    · cases hresult
      rcases Session.exchange_aligned (hbefore.opened hopened) hexchange with
        ⟨-, hlink, hanswers, fields, hwritten, hfields⟩
      refine ⟨opened, kept, _, hopened, hkept, hlink, hwritten, ?_, hanswers⟩
      intro own hown
      rcases List.mem_map.mp hown with ⟨field, hfield, rfl⟩
      exact List.mem_map_of_mem (hfields field (List.mem_of_mem_filter hfield))
  · rintro error rfl
    rcases hcases with ⟨-, hnone, -⟩ | ⟨opened, -, ⟨hnone, -⟩ | ⟨kept, read, -, -, hresult⟩⟩
    · exact hnone
    · exact hnone
    · cases hresult

/-! ## What is written -/

/-- Everything that was written, on the sessions that were dropped and on the one that is
kept. -/
def writes (upstream : UpstreamConnection) : List Write :=
  (upstream.dropped ++ upstream.session.toList).flatMap (·.writes)

/-- The commands that were written for the client, also where the write failed. -/
def forwarded (upstream : UpstreamConnection) : List Bytes :=
  (clientWrites upstream.writes).map (·.command)

theorem writes_of_connect (network : Network) (attempt : Nat) :
    Ends (fun session : Session => Session.Wrote [] [] session.writes)
      (fun lost => Session.Wrote [] [] (lost.session.toList.flatMap (·.writes)))
      (connect network attempt) := by
  unfold connect
  cases network attempt with
  | error error => exact Session.Wrote.refl []
  | ok link =>
      have hsilent := Session.applyIdentity_silent { link }
      apply hsilent.imp (fun _ h => h)
      rintro lost ⟨left, hleft, hwrote⟩
      simpa [hleft] using hwrote

/-- Opening a session writes identification commands, if anything. -/
theorem writes_opened (network : Network) (upstream : UpstreamConnection) :
    match upstream.opened network with
    | (connected, .ok session) =>
        Session.Wrote [] upstream.writes (connected.dropped.flatMap (·.writes) ++ session.writes)
    | (connected, .error _) => Session.Wrote [] upstream.writes connected.writes := by
  unfold opened
  cases hkept : upstream.session with
  | some kept => simpa [writes, hkept] using Session.Wrote.refl upstream.writes
  | none =>
      have hbefore : upstream.writes = upstream.dropped.flatMap (·.writes) := by
        simp [writes, hkept]
      have hconnect := writes_of_connect network upstream.attempts
      cases hresult : connect network upstream.attempts with
      | error lost =>
          rw [hresult] at hconnect
          simpa [writes, hkept] using hconnect.after_others (upstream.dropped.flatMap (·.writes))
      | ok session =>
          rw [hresult] at hconnect
          simpa [hbefore] using hconnect.after_others (upstream.dropped.flatMap (·.writes))

/-- A call writes its command once, unless no session could be opened, and otherwise only
identification commands.  Where it succeeds, the whole command was accepted. -/
theorem exchange_writes {network : Network} {upstream next : UpstreamConnection} {command : Bytes}
    {argv : List String} {result : AppResult Bytes}
    (h : upstream.exchange network command argv = (next, result)) :
    (∃ error, result = .error error ∧ Session.Wrote [] upstream.writes next.writes) ∨
    ∃ accepted, accepted <+: command ∧ (∀ reply, result = .ok reply → accepted = command) ∧
      Session.Wrote [⟨.client, command, accepted⟩] upstream.writes next.writes := by
  have hopening := writes_opened network upstream
  unfold exchange at h
  rcases hopened : upstream.opened network with ⟨connected, error | session⟩
  · rw [hopened] at h hopening
    cases h
    exact .inl ⟨error, rfl, hopening⟩
  · rw [hopened] at h hopening
    have hexchange := session.exchange_writes command argv
    cases hresult : session.exchange command argv with
    | error lost =>
        rw [hresult] at hexchange
        simp only [hresult] at h
        cases h
        rcases hexchange with ⟨accepted, hpart, left, hleft, hwrote⟩
        refine .inr ⟨accepted, hpart, by simp, ?_⟩
        have hall := hopening.trans (hwrote.after_others (connected.dropped.flatMap (·.writes)))
        simpa [writes, hleft] using hall
    | ok read =>
        rw [hresult] at hexchange
        simp only [hresult] at h
        cases h
        refine .inr ⟨command, List.prefix_rfl, fun _ _ => rfl, ?_⟩
        have hwrote : Session.Wrote _ session.writes read.1.writes := hexchange
        have hall := hopening.trans (hwrote.after_others (connected.dropped.flatMap (·.writes)))
        simpa [writes] using hall

/-- A call that succeeds wrote its whole command. -/
theorem wrote_of_exchange {network : Network} {upstream next : UpstreamConnection}
    {command reply : Bytes} {argv : List String}
    (h : upstream.exchange network command argv = (next, .ok reply)) :
    Session.Wrote [⟨.client, command, command⟩] upstream.writes next.writes := by
  rcases exchange_writes h with ⟨error, herror, -⟩ | ⟨accepted, -, hwhole, hwrote⟩
  · cases herror
  · rwa [hwhole reply rfl] at hwrote

/-- A call forwards its command at most once, and does so if it succeeds. -/
theorem exchange_forwarded {network : Network} {upstream next : UpstreamConnection}
    {command : Bytes} {argv : List String} {result : AppResult Bytes}
    (h : upstream.exchange network command argv = (next, result)) :
    next.forwarded = upstream.forwarded ∧ (∃ error, result = .error error) ∨
      next.forwarded = upstream.forwarded ++ [command] := by
  rcases exchange_writes h with ⟨error, hresult, hwrote⟩ | ⟨accepted, -, -, hwrote⟩
  · exact .inl ⟨by simp [forwarded, hwrote.clientWrites], error, hresult⟩
  · exact .inr (by simp [forwarded, hwrote.clientWrites])

end UpstreamConnection

end EvilResp
