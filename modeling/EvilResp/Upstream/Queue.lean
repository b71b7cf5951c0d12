import EvilResp.Cluster.Normalize
import EvilResp.Upstream.Connection

/-!
# The transaction of the upstream

What an upstream that obeys queueing has queued on one stream follows from the dialogue
of the stream: MULTI opens a transaction, a command that is answered as queued is
appended, and DISCARD and a finished EXEC close it.  The commands by which the proxy
identifies itself are part of the dialogue, but leave an identified stream with the same
queue.

Main results:

- Theorem {lit}`Session.exchange_queue`: an exchange that succeeds takes its own command
  and reply into account, and nothing else.
- Theorem {lit}`UpstreamConnection.exchange_queue`: a failed one leaves no transaction.
-/

namespace EvilResp

open Library
open EvilResp.Resp

/-! ## Queues -/

/-- The names of the queued commands, while a transaction is open. -/
abbrev Queue := Option (List (Option String))

/-- The name under which a command is known. -/
def nameOf (command : Bytes) : Option String :=
  match parseFrame command with
  | .ok frame => frame.commandName
  | .error _ => none

/-- The plain acknowledgement. -/
def okReply : Bytes :=
  asBytes "+OK\r\n"

/-- The reply to a command that was queued. -/
def queuedReply : Bytes :=
  asBytes "+QUEUED\r\n"

/-- The replies to EXEC after which the transaction is over: an array, a null, or the
report that it was aborted. -/
def closesQueue (reply : Bytes) : Bool :=
  reply.head? = some 42 ∨ reply.head? = some 95 ∨ reply = asBytes "$-1\r\n" ∨
    (asBytes "-EXECABORT").isPrefixOf reply

/-- One command with its reply. -/
def Queue.step (queue : Queue) (command reply : Bytes) : Queue :=
  if nameOf command = some "MULTI" ∧ reply = okReply then some []
  else if nameOf command = some "DISCARD" ∧ reply = okReply then none
  else if nameOf command = some "EXEC" ∧ closesQueue reply then none
  else if reply = queuedReply then queue.map (· ++ [nameOf command])
  else queue

/-- A dialogue from the start of a stream. -/
def queueAfter (dialogue : List (Bytes × Bytes)) : Queue :=
  dialogue.foldl (fun queue exchanged => queue.step exchanged.1 exchanged.2) none

theorem queueAfter_append (dialogue later : List (Bytes × Bytes)) :
    queueAfter (dialogue ++ later) =
      later.foldl (fun queue exchanged => queue.step exchanged.1 exchanged.2)
        (queueAfter dialogue) :=
  List.foldl_append

/-- The commands of the upstream's own protocol. -/
def isTransactional (name : Option String) : Bool :=
  name = some "MULTI" ∨ name = some "EXEC" ∨ name = some "DISCARD"

/-- While a transaction is open every other command is queued or refused; without one
nothing is queued, and EXEC is refused. -/
structure Link.ObeysQueueing (link : Link) : Prop where
  queues : ∀ commands received command reply, Answered link.Answers commands received →
    link.Answers (commands ++ [command]) reply →
    (queueAfter (commands.zip received)).isSome = true → isTransactional (nameOf command) = false →
    reply = queuedReply ∨ isErrorReply reply = true
  idle : ∀ commands received command reply, Answered link.Answers commands received →
    link.Answers (commands ++ [command]) reply → queueAfter (commands.zip received) = none →
    reply ≠ queuedReply ∧ (nameOf command = some "EXEC" → isErrorReply reply = true)

namespace Session

/-- The transaction that the dialogue of a session left. -/
def queue (session : Session) : Queue :=
  queueAfter (session.written.zip session.received)

theorem nameOf_own {command : Bytes} (h : command ∈ commands.map Frame.encode) :
    nameOf command = some "CLIENT" := by
  have hall : ∀ command ∈ commands.map Frame.encode, nameOf command = some "CLIENT" := by
    decide +kernel
  exact hall command h

/-- A field that is identified was not queued. -/
theorem stillPending_not_queued {pending : Bool} : stillPending queuedReply ≠ .ok pending := by
  have hparse : parseFrame queuedReply = .ok (.simpleString "QUEUED") := by decide +kernel
  simp [stillPending, hparse]

/-- The proxy's own commands, once they are answered, leave a transaction as it is. -/
theorem step_own {queue : Queue} {command reply : Bytes} {pending : Bool}
    (hcommand : command ∈ commands.map Frame.encode) (hreply : stillPending reply = .ok pending) :
    queue.step command reply = queue := by
  have hqueued : reply ≠ queuedReply := by
    rintro rfl
    exact stillPending_not_queued hreply
  simp [Queue.step, nameOf_own hcommand, hqueued]

/-! ## Exchanges -/

theorem writeAll_dialogue {session next : Session} {sender : Sender} {command : Bytes}
    (h : session.writeAll sender command = .ok next) :
    next.written = session.written ++ [command] ∧ next.received = session.received := by
  rw [writeAll_cases h]
  exact ⟨session.written_wrote _, rfl⟩

theorem operate_dialogue {session next : Session} (h : session.operate = .ok next) :
    next.written = session.written ∧ next.received = session.received := by
  rw [operate_cases h]
  exact ⟨rfl, rfl⟩

theorem writePending_dialogue {fields : List (Bool × Frame)} :
    ∀ {session next : Session}, writePending fields session = .ok next →
      next.written = session.written ++ pendingCommands fields ∧
      next.received = session.received := by
  induction fields with
  | nil =>
      intro session next h
      cases h
      simp [pendingCommands]
  | cons field fields ih =>
      intro session next h
      rcases field with ⟨_ | _, command⟩
      · simpa [pendingCommands] using ih h
      · rcases bind_eq_ok_iff.mp h with ⟨wrote, hwrote, hrest⟩
        rcases writeAll_dialogue hwrote with ⟨hwritten, hreceived⟩
        simpa [pendingCommands, hwritten, hreceived] using ih hrest

theorem readRawFrame_dialogue {session next : Session} {raw : Bytes}
    (h : session.readRawFrame = .ok (next, raw)) :
    next.written = session.written ∧ next.received = session.received ++ [raw] := by
  rcases readRawFrame_cases h with ⟨rest, -, hnext⟩
  rw [hnext]
  exact ⟨rfl, rfl⟩

theorem readPending_dialogue {fields : List (Bool × Frame)} :
    ∀ {session next : Session} {pending : List Bool},
      readPending fields session = .ok (next, pending) →
      ∃ replies, next.written = session.written ∧ next.received = session.received ++ replies ∧
        replies.length = (pendingCommands fields).length ∧
        ∀ reply ∈ replies, ∃ pending, stillPending reply = .ok pending := by
  induction fields with
  | nil =>
      intro session next pending h
      cases h
      exact ⟨[], by simp [pendingCommands]⟩
  | cons field fields ih =>
      intro session next pending h
      rcases field with ⟨_ | _, command⟩
      · rcases bind_eq_ok_iff.mp h with ⟨⟨read, rest⟩, hread, hok⟩
        cases hok
        simpa [pendingCommands] using ih hread
      · rcases bind_eq_ok_iff.mp h with ⟨⟨read, raw⟩, hread, hfirst⟩
        rcases bind_eq_ok_iff.mp hfirst with ⟨first, hpending, hrest⟩
        rw [failing_eq_ok_iff] at hpending
        rcases bind_eq_ok_iff.mp hrest with ⟨⟨last, rest⟩, hlast, hok⟩
        cases hok
        rcases readRawFrame_dialogue hread with ⟨hwritten, hreceived⟩
        rcases ih hlast with ⟨replies, hsame, hmore, hlength, hall⟩
        refine ⟨raw :: replies, hsame.trans hwritten, ?_, ?_, ?_⟩
        · rw [hmore, hreceived, List.append_assoc]
          rfl
        · simpa [pendingCommands] using hlength
        · intro reply hreply
          rcases List.mem_cons.mp hreply with rfl | hlater
          · exact ⟨first, hpending⟩
          · exact hall reply hlater

/-- Own commands with their replies leave a transaction as it is. -/
theorem foldl_own {own : List Bytes} :
    ∀ {replies : List Bytes} {queue : Queue},
      (∀ command ∈ own, command ∈ commands.map Frame.encode) →
      (∀ reply ∈ replies, ∃ pending, stillPending reply = .ok pending) →
      (own.zip replies).foldl (fun queue exchanged => queue.step exchanged.1 exchanged.2) queue =
        queue := by
  induction own with
  | nil =>
      intro replies queue _ _
      rfl
  | cons command own ih =>
      intro replies queue hown hreplies
      cases replies with
      | nil => rfl
      | cons reply replies =>
          rcases hreplies reply List.mem_cons_self with ⟨pending, hreply⟩
          rw [List.zip_cons_cons, List.foldl_cons,
            step_own (hown command List.mem_cons_self) hreply]
          exact ih (fun own hmem => hown own (List.mem_cons_of_mem _ hmem))
            (fun reply hmem => hreplies reply (List.mem_cons_of_mem _ hmem))

/-- Identifying a session leaves its transaction as it is. -/
theorem applyIdentity_queue {session next : Session}
    (hlength : session.written.length = session.received.length)
    (h : session.applyIdentity = .ok next) :
    next.queue = session.queue ∧ next.written.length = next.received.length := by
  rcases bind_eq_ok_iff.mp h with ⟨wrote, hwrote, hrest⟩
  rcases bind_eq_ok_iff.mp hrest with ⟨flushed, hflushed, hrest⟩
  rcases bind_eq_ok_iff.mp hrest with ⟨⟨last, pending⟩, hread, hok⟩
  cases hok
  rcases writePending_dialogue hwrote with ⟨hwritten, hreceived⟩
  rcases operate_dialogue hflushed with ⟨hsent, hsilent⟩
  rcases readPending_dialogue hread with ⟨replies, hsame, hmore, hreplies, hall⟩
  rw [hsent, hwritten] at hsame
  rw [hsilent, hreceived] at hmore
  have hown : ∀ command ∈ pendingCommands (session.pending.zip commands),
      command ∈ commands.map Frame.encode := by
    intro command hcommand
    rcases List.mem_map.mp hcommand with ⟨field, hfield, rfl⟩
    exact List.mem_map_of_mem (List.of_mem_zip (List.mem_of_mem_filter hfield)).2
  refine ⟨?_, ?_⟩
  · show queueAfter (last.written.zip last.received) = queueAfter _
    rw [hsame, hmore, List.zip_append hlength, queueAfter_append, foldl_own hown hall]
  · show last.written.length = last.received.length
    rw [hsame, hmore]
    simp [hreplies, hlength]

/-- An exchange that succeeds takes its own command and reply into account. -/
theorem exchange_queue {session next : Session} {command reply : Bytes} {argv : List String}
    (hlength : session.written.length = session.received.length)
    (h : session.exchange command argv = .ok (next, reply)) :
    next.queue = session.queue.step command reply := by
  rcases bind_eq_ok_iff.mp h with ⟨wrote, hwrote, hrest⟩
  rcases bind_eq_ok_iff.mp hrest with ⟨flushed, hflushed, hrest⟩
  rcases bind_eq_ok_iff.mp hrest with ⟨⟨last, raw⟩, hread, hretry⟩
  rcases writeAll_dialogue hwrote with ⟨hsent, hsilent⟩
  rcases operate_dialogue hflushed with ⟨hkept, hstill⟩
  rcases readRawFrame_dialogue hread with ⟨hwritten, hreceived⟩
  rw [hkept, hsent] at hwritten
  rw [hstill, hsilent] at hreceived
  dsimp only at hretry
  have hlast : queueAfter (last.written.zip last.received) = session.queue.step command raw := by
    rw [hwritten, hreceived, List.zip_append hlength, queueAfter_append]
    rfl
  have hsame : last.written.length = last.received.length := by
    simp [hwritten, hreceived, hlength]
  split_ifs at hretry
  · rcases bind_eq_ok_iff.mp hretry with ⟨identified, hidentified, hok⟩
    cases hok
    rw [(applyIdentity_queue (by exact hsame) hidentified).1]
    exact hlast
  · cases hretry
    exact hlast

end Session

namespace UpstreamConnection

/-- The transaction on the session that is kept. -/
def queue (upstream : UpstreamConnection) : Queue :=
  match upstream.session with
  | none => none
  | some session => session.queue

/-- A new session has no transaction. -/
theorem connect_queue {network : Network} {attempt : Nat} {session : Session}
    (h : connect network attempt = .ok session) : session.queue = none := by
  rcases connect_cases h with ⟨link, -, hidentity⟩
  rw [(Session.applyIdentity_queue rfl hidentity).1]
  rfl

/-- The session of a call has the transaction of the one that was kept. -/
theorem opened_queue {network : Network} {upstream : UpstreamConnection} {session : Session}
    (h : (upstream.opened network).2 = .ok session) : session.queue = upstream.queue := by
  unfold queue
  rcases opened_cases h with hkept | ⟨hnone, hconnect⟩
  · rw [hkept]
  · rw [hnone]
    exact connect_queue hconnect

/-- A call that succeeds takes its own command and reply into account; a failed one leaves
no transaction. -/
theorem exchange_queue {network : Network} {upstream next : UpstreamConnection} {command : Bytes}
    {argv : List String} {result : AppResult Bytes} (hupstream : upstream.InStep)
    (h : upstream.exchange network command argv = (next, result)) :
    (∀ reply, result = .ok reply → next.queue = upstream.queue.step command reply) ∧
      ∀ error, result = .error error → next.queue = none := by
  rcases exchange_cases h with ⟨-, hnone, error, -, rfl⟩ |
    ⟨session, hopened, ⟨hnone, error, rfl⟩ | ⟨kept, read, hexchange, hkept, rfl⟩⟩
  · simp [queue, hnone]
  · simp [queue, hnone]
  · refine ⟨?_, by simp⟩
    rintro reply ⟨⟩
    have haligned : session.Aligned := hupstream.opened hopened
    have hqueue := Session.exchange_queue haligned.received.length_eq hexchange
    rw [opened_queue hopened] at hqueue
    simp only [queue, hkept]
    exact hqueue

/-! ## Links -/

/-- The session that is kept is a stream to the network. -/
def Linked (network : Network) (upstream : UpstreamConnection) : Prop :=
  ∀ session, upstream.session = some session → ∃ attempt, network attempt = .ok session.link

theorem connect_link {network : Network} {attempt : Nat} {session : Session}
    (h : connect network attempt = .ok session) : network attempt = .ok session.link := by
  rcases connect_cases h with ⟨link, hlink, hidentity⟩
  have hfresh : Session.Aligned { link } := ⟨rfl, .nil, rfl, rfl⟩
  rw [(Session.applyIdentity_aligned hfresh hidentity).2.1]
  exact hlink

theorem Linked.opened {network : Network} {upstream : UpstreamConnection} {session : Session}
    (hupstream : upstream.Linked network) (h : (upstream.opened network).2 = .ok session) :
    ∃ attempt, network attempt = .ok session.link := by
  rcases opened_cases h with hkept | ⟨-, hconnect⟩
  · exact hupstream session hkept
  · exact ⟨_, connect_link hconnect⟩

theorem Linked.exchange {network : Network} {upstream next : UpstreamConnection} {command : Bytes}
    {argv : List String} {result : AppResult Bytes} (hlinked : upstream.Linked network)
    (hupstream : upstream.InStep) (h : upstream.exchange network command argv = (next, result)) :
    next.Linked network := by
  intro session hsession
  rcases exchange_cases h with ⟨-, hnone, -⟩ |
    ⟨opened, hopened, ⟨hnone, -⟩ | ⟨kept, read, hexchange, hkept, -⟩⟩
  · rw [hnone] at hsession
    cases hsession
  · rw [hnone] at hsession
    cases hsession
  · rw [hkept] at hsession
    cases hsession
    rw [(Session.exchange_aligned (hupstream.opened hopened) hexchange).2.1]
    exact hlinked.opened hopened

/-- Without a transaction EXEC is refused. -/
theorem exec_refused {network : Network} {upstream next : UpstreamConnection}
    {command reply : Bytes} {argv : List String} (hlinked : upstream.Linked network)
    (hupstream : upstream.InStep)
    (hobeys : ∀ attempt link, network attempt = .ok link → link.ObeysQueueing)
    (h : upstream.exchange network command argv = (next, .ok reply))
    (hexec : nameOf command = some "EXEC") (hidle : upstream.queue = none) :
    isErrorReply reply = true := by
  rcases exchange_cases h with ⟨-, -, error, -, herror⟩ |
    ⟨session, hopened, ⟨-, error, herror⟩ | ⟨kept, read, hexchange, -, hresult⟩⟩
  · cases herror
  · cases herror
  · cases hresult
    have haligned : session.Aligned := hupstream.opened hopened
    rcases hlinked.opened hopened with ⟨attempt, hattempt⟩
    have hqueue : session.queue = none := by rw [opened_queue hopened, hidle]
    exact ((hobeys attempt session.link hattempt).idle session.written session.received command
      reply haligned.received (Session.exchange_aligned haligned hexchange).2.2.1 hqueue).2 hexec

end UpstreamConnection

/-! ## An upstream with transactions -/

end EvilResp
