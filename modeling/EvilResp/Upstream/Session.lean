import EvilResp.Config.Options
import EvilResp.Library.Dialogue
import EvilResp.Resp.Parser
import EvilResp.Resp.Reader

/-!
# Upstream sessions

One session is one stream to the upstream, identified by up to three commands of
the proxy's own.  The upstream answers every command it received with one reply, in
order; a reply may be malformed, it may be cut off together with the stream, and
every operation on the stream may fail.

Main results:

- Theorem {lit}`Session.applyIdentity_aligned`: an identification that succeeds reads
  exactly the replies to the commands it wrote.
- Theorem {lit}`Session.exchange_aligned`: an exchange that succeeds returns the reply
  to its own command and leaves no reply unread.
- Theorem {lit}`Session.exchange_writes`: whether it succeeds or not, an exchange writes
  its command once and otherwise only identification commands.
-/

namespace EvilResp

open Library
open EvilResp.Resp

/-! ## The upstream -/

/-- One reply, as its bytes arrive. -/
inductive Reply where
  | frame (bytes : Bytes) (complete : Resp.readRawFrame bytes = .ok (bytes, []))
  | malformed (bytes : Bytes)
      (refused : ∀ more, ∃ error, Resp.readRawFrame (bytes ++ more) = .error error)
  | cut (bytes : Bytes) (refused : ∃ error, Resp.readRawFrame bytes = .error error)

namespace Reply

/-- The bytes of a reply. -/
def bytes : Reply → Bytes
  | frame bytes _ => bytes
  | malformed bytes _ => bytes
  | cut bytes _ => bytes

/-- Whether the stream ends with this reply. -/
def isLast : Reply → Bool
  | cut _ _ => true
  | _ => false

/-- The bytes of replies that arrive one after the other. -/
def wire : List Reply → Bytes
  | [] => []
  | reply :: later => reply.bytes ++ if reply.isLast then [] else wire later

/-- Nothing arrives after the reply that ends the stream. -/
theorem wire_snoc (reply : Reply) (replies : List Reply) :
    wire (replies ++ [reply]) =
      if replies.any isLast then wire replies else wire replies ++ reply.bytes := by
  induction replies with
  | nil => simp [wire]
  | cons first replies ih =>
      cases hlast : first.isLast with
      | true => simp [wire, hlast]
      | false =>
          simp only [List.cons_append, wire, hlast, Bool.false_eq_true, if_false, ih,
            List.any_cons, Bool.false_or]
          split_ifs
          · rfl
          · rw [List.append_assoc]

/-- A frame read from the wire is the first reply, and leaves the later ones. -/
theorem readRawFrame_wire {reply : Reply} {later : List Reply} {raw rest : Bytes}
    (h : Resp.readRawFrame (wire (reply :: later)) = .ok (raw, rest)) :
    (∃ complete, reply = .frame raw complete) ∧ rest = wire later := by
  cases reply with
  | frame bytes complete =>
      have hread := readRawFrame_append complete (wire later)
      simp only [wire, Reply.bytes, isLast, Bool.false_eq_true, if_false] at h
      rw [hread, List.nil_append] at h
      cases h
      exact ⟨⟨complete, rfl⟩, rfl⟩
  | malformed bytes refused =>
      rcases refused (wire later) with ⟨error, herror⟩
      simp only [wire, Reply.bytes, isLast, Bool.false_eq_true, if_false] at h
      rw [herror] at h
      cases h
  | cut bytes refused =>
      rcases refused with ⟨error, herror⟩
      simp only [wire, Reply.bytes, isLast, if_true, List.append_nil] at h
      rw [herror] at h
      cases h

end Reply

/-- How an operation on a stream fails.  A write that fails may have accepted a part of its
bytes before. -/
structure Failure where
  error : IoError
  taken : Nat := 0

/-- The other end of one stream: its answer to the last of all commands it received,
and which operations on the stream fail. -/
structure Link where
  answer : List Bytes → Reply
  fault : Nat → Option Failure

/-- The other end of a stream that acknowledges every command and never fails. -/
def Link.acknowledging : Link where
  answer _ := .frame (asBytes "+OK\r\n") (by decide +kernel)
  fault _ := none

/-- The bytes are a frame that answers the last of these commands. -/
def Link.Answers (link : Link) (commands : List Bytes) (raw : Bytes) : Prop :=
  ∃ complete, link.answer commands = .frame raw complete

/-! ## Streams -/

/-- Whose command is written. -/
inductive Sender where
  | identity
  | client
deriving DecidableEq

/-- One command that was written to a stream, with the part of it that was accepted. -/
structure Write where
  sender : Sender
  command : Bytes
  accepted : Bytes

/-- What was written for the client. -/
def clientWrites (writes : List Write) : List Write :=
  writes.filter (·.sender = .client)

/-- A stream with the identification fields that are still pending.  The commands
written and the replies read are the history of the stream. -/
structure Session where
  link : Link
  pending : List Bool := [true, true, true]
  operations : Nat := 0
  unread : Bytes := []
  finished : Bool := false
  writes : List Write := []
  received : List Bytes := []

/-- An operation failed.  The stream that it left is not used again. -/
structure Lost where
  error : AppError
  session : Option Session := none

namespace Session

/-- The commands written, in order. -/
def written (session : Session) : List Bytes :=
  session.writes.map (·.command)

/-- An error that is met on a stream. -/
def failing {α : Type} (session : Session) (result : AppResult α) : Except Lost α :=
  result.mapError fun error => { error, session := some session }

theorem failing_eq_ok_iff {α : Type} {session : Session} {result : AppResult α} {a : α} :
    session.failing result = .ok a ↔ result = .ok a := by
  cases result <;> simp [failing, Except.mapError]

/-- One operation on the stream, which may fail. -/
def operate (session : Session) : Except Lost Session :=
  match session.link.fault session.operations with
  | some failure => .error { error := .io failure.error, session := some session }
  | none => .ok { session with operations := session.operations + 1 }

/-- The session after a write. -/
def wrote (session : Session) (write : Write) : Session :=
  { session with
    operations := session.operations + 1
    writes := session.writes ++ [write] }

/-- Write one whole command, unless the write fails before its end.  The reply to a whole
command follows what is still unread. -/
def writeAll (session : Session) (sender : Sender) (command : Bytes) : Except Lost Session :=
  match session.link.fault session.operations with
  | some failure =>
      let accepted := command.dropLast.take failure.taken
      .error {
        error := .io failure.error
        session := some (session.wrote { sender, command, accepted }) }
  | none =>
      let reply := session.link.answer (session.written ++ [command])
      .ok { session.wrote { sender, command, accepted := command } with
        unread := if session.finished then session.unread else session.unread ++ reply.bytes
        finished := session.finished || reply.isLast }

/-- Flush what was written. -/
def flush (session : Session) : Except Lost Session :=
  session.operate

/-- Read the next reply. -/
def readRawFrame (session : Session) : Except Lost (Session × Bytes) := do
  let session ← session.operate
  let (raw, rest) ← session.failing ((Resp.readRawFrame session.unread).mapError .io)
  .ok ({ session with unread := rest, received := session.received ++ [raw] }, raw)

/-! ## Identification -/

/-- The identification commands, one for each field. -/
def commands : List Frame :=
  [["CLIENT", "SETNAME", "evilresp"], ["CLIENT", "SETINFO", "LIB-NAME", "evilresp"],
    ["CLIENT", "SETINFO", "LIB-VER", "0.1.0"]].map fun argv =>
      .array (some (argv.map fun arg => .bulkString (some (asBytes arg))))

/-- Write the commands of the pending fields, without waiting for replies. -/
def writePending : List (Bool × Frame) → Session → Except Lost Session
  | [], session => .ok session
  | (true, command) :: fields, session => do
      let session ← session.writeAll .identity command.encode
      writePending fields session
  | (false, _) :: fields, session => writePending fields session

/-- Whether a field stays pending after the reply to its command.  The source's text
goes on with the frame. -/
def stillPending (raw : Bytes) : AppResult Bool :=
  match parseFrame raw with
  | .error error => .error (.resp error)
  | .ok (.simpleString "OK") => .ok false
  | .ok (.simpleError _) => .ok true
  | .ok (.bulkError _) => .ok true
  | .ok _ => .error (.proxy "upstream identification returned unexpected frame")

/-- Read one reply for each pending field. -/
def readPending : List (Bool × Frame) → Session → Except Lost (Session × List Bool)
  | [], session => .ok (session, [])
  | (true, _) :: fields, session => do
      let (session, raw) ← session.readRawFrame
      let first ← session.failing (stillPending raw)
      let (session, rest) ← readPending fields session
      .ok (session, first :: rest)
  | (false, _) :: fields, session => do
      let (session, rest) ← readPending fields session
      .ok (session, false :: rest)

/-- Identify the pending fields: write all their commands, then read all replies. -/
def applyIdentity (session : Session) : Except Lost Session := do
  let fields := session.pending.zip commands
  let session ← writePending fields session
  let session ← session.flush
  let (session, pending) ← readPending fields session
  .ok { session with pending }

/-- Whether rejected fields are retried after this reply, and the fields left. -/
def retryAfter (pending : List Bool) (argv : List String) (reply : Bytes) : List Bool × Bool :=
  match argv with
  | [] => (pending, false)
  | command :: _ =>
      let authenticated := eqIgnoreAsciiCase command "AUTH" && reply = asBytes "+OK\r\n"
      let hello := eqIgnoreAsciiCase command "HELLO" &&
        (reply.head? = some 42 || reply.head? = some 37)
      -- The name of HELLO follows the protocol and an optional pair of credentials.
      let nameIndex := if argv[2]?.any (eqIgnoreAsciiCase · "AUTH") then 5 else 2
      let pending :=
        if hello && argv[nameIndex]?.any (eqIgnoreAsciiCase · "SETNAME") then pending.set 0 false
        else pending
      (pending, (authenticated || hello) && pending.any id)

/-! ## Exchanges -/

/-- Write a command of the client and read its reply.  Rejected fields may be retried. -/
def exchange (session : Session) (command : Bytes) (argv : List String) :
    Except Lost (Session × Bytes) := do
  let session ← session.writeAll .client command
  let session ← session.flush
  let (session, reply) ← session.readRawFrame
  let (pending, retry) := retryAfter session.pending argv reply
  let session := { session with pending }
  if retry then do
    let session ← session.applyIdentity
    .ok (session, reply)
  else .ok (session, reply)

/-! ## Alignment -/

/-- The commands that were answered and those whose replies are still on the wire. -/
structure Outstanding (session : Session) (answered waiting : List Bytes) : Prop where
  written : session.written = answered ++ waiting
  received : Answered session.link.Answers answered session.received
  unread : session.unread = Reply.wire (replies session.link.answer answered waiting)
  finished : session.finished = (replies session.link.answer answered waiting).any Reply.isLast

/-- Every command was answered and every reply was read. -/
def Aligned (session : Session) : Prop :=
  session.Outstanding session.written []

theorem operate_cases {session next : Session} (h : session.operate = .ok next) :
    next = { session with operations := session.operations + 1 } := by
  unfold operate at h
  split at h
  · cases h
  · cases h
    rfl

/-- A write that succeeds accepts the whole command. -/
theorem writeAll_cases {session next : Session} {sender : Sender} {command : Bytes}
    (h : session.writeAll sender command = .ok next) :
    next = { session.wrote { sender, command, accepted := command } with
      unread :=
        if session.finished then session.unread
        else session.unread ++ (session.link.answer (session.written ++ [command])).bytes
      finished :=
        session.finished || (session.link.answer (session.written ++ [command])).isLast } := by
  unfold writeAll at h
  split at h
  · cases h
  · cases h
    rfl

/-- Reading a reply takes its bytes off the wire. -/
theorem readRawFrame_cases {session next : Session} {raw : Bytes}
    (h : session.readRawFrame = .ok (next, raw)) :
    ∃ rest, Resp.readRawFrame session.unread = .ok (raw, rest) ∧
      next = { session with
        operations := session.operations + 1
        unread := rest
        received := session.received ++ [raw] } := by
  rcases bind_eq_ok_iff.mp h with ⟨counted, hcounted, hread⟩
  rcases bind_eq_ok_iff.mp hread with ⟨⟨first, rest⟩, hframe, hok⟩
  cases hok
  rw [failing_eq_ok_iff, operate_cases hcounted] at hframe
  refine ⟨rest, ?_, by rw [operate_cases hcounted]⟩
  cases hresult : Resp.readRawFrame session.unread with
  | error error => simp [hresult, Except.mapError] at hframe
  | ok split => simpa [hresult, Except.mapError] using hframe

@[simp] theorem written_wrote (session : Session) (write : Write) :
    (session.wrote write).written = session.written ++ [write.command] := by
  simp [wrote, written]

@[simp] theorem written_with_pending (session : Session) (pending : List Bool) :
    written { session with pending } = session.written :=
  rfl

/-- Counting an operation changes nothing of the dialogue. -/
theorem Outstanding.operate {session next : Session} {answered waiting : List Bytes}
    (hsession : session.Outstanding answered waiting) (h : session.operate = .ok next) :
    next.Outstanding answered waiting ∧ next.link = session.link := by
  rw [operate_cases h]
  exact ⟨⟨hsession.written, hsession.received, hsession.unread, hsession.finished⟩, rfl⟩

theorem Outstanding.writeAll {session next : Session} {answered waiting : List Bytes}
    {sender : Sender} {command : Bytes} (hsession : session.Outstanding answered waiting)
    (h : session.writeAll sender command = .ok next) :
    next.Outstanding answered (waiting ++ [command]) ∧ next.link = session.link := by
  have hreplies : replies session.link.answer answered (waiting ++ [command]) =
      replies session.link.answer answered waiting ++
        [session.link.answer (session.written ++ [command])] := by
    rw [replies_append, hsession.written]
    rfl
  rw [writeAll_cases h]
  refine ⟨⟨?_, hsession.received, ?_, ?_⟩, rfl⟩
  · show (session.wrote _).written = _
    simp [hsession.written]
  · show _ = Reply.wire (replies session.link.answer answered (waiting ++ [command]))
    rw [hreplies, Reply.wire_snoc, ← hsession.finished, ← hsession.unread]
  · show _ = (replies session.link.answer answered (waiting ++ [command])).any Reply.isLast
    rw [hreplies, List.any_append, ← hsession.finished]
    simp

/-- A reply that was read answers the first waiting command. -/
theorem Outstanding.readRawFrame {session next : Session} {answered waiting : List Bytes}
    {command raw : Bytes} (hsession : session.Outstanding answered (command :: waiting))
    (h : session.readRawFrame = .ok (next, raw)) :
    next.Outstanding (answered ++ [command]) waiting ∧ next.link = session.link ∧
      session.link.Answers (answered ++ [command]) raw ∧ next.pending = session.pending := by
  rcases readRawFrame_cases h with ⟨rest, hframe, hnext⟩
  rw [hsession.unread] at hframe
  rcases Reply.readRawFrame_wire hframe with ⟨⟨complete, hanswer⟩, hrest⟩
  have hanswers : session.link.Answers (answered ++ [command]) raw := ⟨complete, hanswer⟩
  rw [hnext]
  refine ⟨⟨?_, .snoc hsession.received hanswers, hrest, ?_⟩, rfl, hanswers, rfl⟩
  · show session.written = _
    simp [hsession.written]
  · have hfinished := hsession.finished
    simp only [replies, List.any_cons, hanswer, Reply.isLast, Bool.false_or] at hfinished
    exact hfinished

/-- The commands of the pending fields. -/
def pendingCommands (fields : List (Bool × Frame)) : List Bytes :=
  (fields.filter Prod.fst).map fun field => field.2.encode

theorem Outstanding.writePending {fields : List (Bool × Frame)} :
    ∀ {session next : Session} {answered waiting : List Bytes},
      session.Outstanding answered waiting → writePending fields session = .ok next →
      next.Outstanding answered (waiting ++ pendingCommands fields) ∧ next.link = session.link := by
  induction fields with
  | nil =>
      intro session next answered waiting hsession h
      cases h
      simpa [pendingCommands] using hsession
  | cons field fields ih =>
      intro session next answered waiting hsession h
      rcases field with ⟨_ | _, command⟩
      · simpa [pendingCommands] using ih hsession h
      · rcases bind_eq_ok_iff.mp h with ⟨wrote, hwrote, hrest⟩
        rcases hsession.writeAll hwrote with ⟨hwaiting, hlink⟩
        rcases ih hwaiting hrest with ⟨hnext, hsame⟩
        refine ⟨?_, hsame.trans hlink⟩
        simpa [pendingCommands] using hnext

theorem Outstanding.readPending {fields : List (Bool × Frame)} :
    ∀ {session next : Session} {answered : List Bytes} {pending : List Bool},
      session.Outstanding answered (pendingCommands fields) →
      readPending fields session = .ok (next, pending) →
      next.Outstanding (answered ++ pendingCommands fields) [] ∧ next.link = session.link := by
  induction fields with
  | nil =>
      intro session next answered pending hsession h
      cases h
      simpa [pendingCommands] using hsession
  | cons field fields ih =>
      intro session next answered pending hsession h
      rcases field with ⟨_ | _, command⟩
      · rcases bind_eq_ok_iff.mp h with ⟨⟨read, rest⟩, hread, hok⟩
        cases hok
        simpa [pendingCommands] using ih (by simpa [pendingCommands] using hsession) hread
      · rcases bind_eq_ok_iff.mp h with ⟨⟨read, raw⟩, hread, hfirst⟩
        rcases bind_eq_ok_iff.mp hfirst with ⟨first, -, hrest⟩
        rcases bind_eq_ok_iff.mp hrest with ⟨⟨last, rest⟩, hlast, hok⟩
        cases hok
        rcases Outstanding.readRawFrame (by simpa [pendingCommands] using hsession) hread with
          ⟨hwaiting, hlink, -, -⟩
        rcases ih hwaiting hlast with ⟨hnext, hsame⟩
        refine ⟨?_, hsame.trans hlink⟩
        simpa [pendingCommands] using hnext

theorem Outstanding.aligned {session : Session} {answered : List Bytes}
    (h : session.Outstanding answered []) : session.Aligned := by
  have hwritten : session.written = answered := by simpa using h.written
  unfold Aligned
  rwa [hwritten]

/-- An identification that succeeds reads exactly the replies to the commands it
wrote. -/
theorem applyIdentity_aligned {session next : Session} (hsession : session.Aligned)
    (h : session.applyIdentity = .ok next) :
    next.Aligned ∧ next.link = session.link ∧
      next.written = session.written ++ pendingCommands (session.pending.zip commands) := by
  rcases bind_eq_ok_iff.mp h with ⟨wrote, hwrote, hrest⟩
  rcases bind_eq_ok_iff.mp hrest with ⟨flushed, hflushed, hrest⟩
  rcases bind_eq_ok_iff.mp hrest with ⟨⟨last, pending⟩, hread, hok⟩
  cases hok
  rcases Outstanding.writePending hsession hwrote with ⟨hwaiting, hlink₁⟩
  rcases hwaiting.operate hflushed with ⟨hwaiting, hlink₂⟩
  rcases Outstanding.readPending hwaiting hread with ⟨hlast, hlink₃⟩
  have hnext : Outstanding { last with pending } _ [] :=
    ⟨hlast.written, hlast.received, hlast.unread, hlast.finished⟩
  refine ⟨hnext.aligned, hlink₃.trans (hlink₂.trans hlink₁), ?_⟩
  simpa using hlast.written

/-- An exchange that succeeds returns the reply to its own command, and leaves no
reply unread.  After the command only identification commands were written. -/
theorem exchange_aligned {session next : Session} {command reply : Bytes} {argv : List String}
    (hsession : session.Aligned) (h : session.exchange command argv = .ok (next, reply)) :
    next.Aligned ∧ next.link = session.link ∧
      session.link.Answers (session.written ++ [command]) reply ∧
      ∃ fields, next.written = session.written ++ [command] ++ pendingCommands fields ∧
        ∀ field ∈ fields, field.2 ∈ commands := by
  rcases bind_eq_ok_iff.mp h with ⟨wrote, hwrote, hrest⟩
  rcases bind_eq_ok_iff.mp hrest with ⟨flushed, hflushed, hrest⟩
  rcases bind_eq_ok_iff.mp hrest with ⟨⟨last, raw⟩, hread, hretry⟩
  rcases Outstanding.writeAll hsession hwrote with ⟨hwaiting, hlink₁⟩
  rcases hwaiting.operate hflushed with ⟨hwaiting, hlink₂⟩
  rw [List.nil_append] at hwaiting
  rcases hwaiting.readRawFrame hread with ⟨hlast, hlink₃, hanswers, -⟩
  have hlink : last.link = session.link := hlink₃.trans (hlink₂.trans hlink₁)
  have hanswer : session.link.Answers (session.written ++ [command]) raw :=
    (hlink₂.trans hlink₁) ▸ hanswers
  have hretried : Outstanding { last with pending := (retryAfter last.pending argv raw).1 }
      (session.written ++ [command]) [] :=
    ⟨hlast.written, hlast.received, hlast.unread, hlast.finished⟩
  have hwritten : last.written = session.written ++ [command] := by simpa using hlast.written
  dsimp only at hretry
  split_ifs at hretry
  · rcases bind_eq_ok_iff.mp hretry with ⟨identified, hidentified, hok⟩
    cases hok
    rcases applyIdentity_aligned hretried.aligned hidentified with ⟨haligned, hsame, hcommands⟩
    refine ⟨haligned, hsame.trans hlink, hanswer, _, hwritten ▸ hcommands, ?_⟩
    intro field hfield
    exact (List.of_mem_zip hfield).2
  · cases hretry
    exact ⟨hretried.aligned, hlink, hanswer, [], by simpa [pendingCommands] using hwritten, by simp⟩

/-! ## What is written -/

/-- The proxy's own writes are identification commands, and no write exceeds its command. -/
structure Honest (write : Write) : Prop where
  own : write.sender = .identity → write.command ∈ commands.map Frame.encode
  part : write.accepted <+: write.command

/-- What was written meanwhile, and what of it for the client. -/
def Wrote (sent before after : List Write) : Prop :=
  ∃ more, after = before ++ more ∧ (∀ write ∈ more, Honest write) ∧ clientWrites more = sent

/-- An operation that fails leaves a session on which no more was written than this. -/
def LeftAfter (sent before : List Write) (lost : Lost) : Prop :=
  ∃ left, lost.session = some left ∧ Wrote sent before left.writes

section Wrote

variable {sent later before middle after : List Write}

theorem Wrote.refl (before : List Write) : Wrote [] before before :=
  ⟨[], by simp, by simp, rfl⟩

theorem Wrote.trans (h : Wrote sent before middle) (hlater : Wrote later middle after) :
    Wrote (sent ++ later) before after := by
  rcases h with ⟨first, rfl, hhonest, rfl⟩
  rcases hlater with ⟨second, rfl, hothers, rfl⟩
  refine ⟨first ++ second, List.append_assoc before first second, ?_, ?_⟩
  · intro write hwrite
    exact (List.mem_append.mp hwrite).elim (hhonest write) (hothers write)
  · exact List.filter_append first second

/-- What other sessions wrote before makes no difference. -/
theorem Wrote.after_others (h : Wrote sent before after) (others : List Write) :
    Wrote sent (others ++ before) (others ++ after) := by
  rcases h with ⟨more, rfl, hhonest, hsent⟩
  exact ⟨more, (List.append_assoc others before more).symm, hhonest, hsent⟩

theorem Wrote.left {lost : Lost} (h : Wrote sent before middle)
    (hlost : LeftAfter later middle lost) : LeftAfter (sent ++ later) before lost := by
  rcases hlost with ⟨left, hleft, hlater⟩
  exact ⟨left, hleft, h.trans hlater⟩

/-- An operation that writes nothing for the client, whether it succeeds or not. -/
def Silent {α : Type} (before : List Write) (session : α → Session) : Except Lost α → Prop :=
  Ends (fun a => Wrote [] before (session a).writes) (LeftAfter [] before)

/-- What was written before such an operation is written after it. -/
theorem Wrote.silent {α : Type} {session : α → Session} {x : Except Lost α}
    (h : Wrote sent before middle) (hx : Silent middle session x) :
    Ends (fun a => Wrote sent before (session a).writes) (LeftAfter sent before) x := by
  apply hx.imp
  · intro a hlater
    simpa using h.trans hlater
  · intro lost hlost
    simpa using h.left hlost

/-- What the client had written before comes first. -/
theorem Wrote.clientWrites (h : Wrote sent before after) :
    clientWrites after = clientWrites before ++ sent := by
  rcases h with ⟨more, rfl, -, rfl⟩
  exact List.filter_append before more

theorem Wrote.honest (h : Wrote sent before after) (hbefore : ∀ write ∈ before, Honest write) :
    ∀ write ∈ after, Honest write := by
  rcases h with ⟨more, rfl, hmore, -⟩
  intro write hwrite
  exact (List.mem_append.mp hwrite).elim (hbefore write) (hmore write)

theorem wrote_wrote (session : Session) {write : Write} (h : Honest write) :
    Wrote (EvilResp.clientWrites [write]) session.writes (session.wrote write).writes :=
  ⟨[write], rfl, by simpa using h, rfl⟩

end Wrote

/-- An operation other than a write leaves what was written. -/
theorem operate_silent (session : Session) : Silent session.writes id session.operate := by
  unfold operate
  split
  · exact ⟨session, rfl, .refl _⟩
  · exact Wrote.refl _

theorem failing_silent {α : Type} (session : Session) (result : AppResult α) :
    Silent session.writes (fun _ => session) (session.failing result) := by
  cases result with
  | error error => exact ⟨session, rfl, .refl _⟩
  | ok a => exact Wrote.refl _

/-- A write that fails has accepted a part of its command. -/
theorem writeAll_writes (session : Session) (sender : Sender) {command : Bytes}
    (hown : sender = .identity → command ∈ commands.map Frame.encode) :
    Ends (fun next =>
        Wrote (clientWrites [⟨sender, command, command⟩]) session.writes next.writes)
      (fun lost => ∃ accepted, accepted <+: command ∧
        LeftAfter (clientWrites [⟨sender, command, accepted⟩]) session.writes lost)
      (session.writeAll sender command) := by
  unfold writeAll
  split
  · rename_i failure _
    have hpart : command.dropLast.take failure.taken <+: command :=
      (List.take_prefix _ _).trans (List.dropLast_prefix _)
    exact ⟨_, hpart, _, rfl, session.wrote_wrote ⟨hown, hpart⟩⟩
  · exact session.wrote_wrote ⟨hown, List.prefix_rfl⟩

theorem readRawFrame_silent (session : Session) :
    Silent session.writes Prod.fst session.readRawFrame := by
  apply session.operate_silent.bind
  intro counted hcounted
  apply (hcounted.silent (counted.failing_silent _)).bind
  exact fun read hread => hread

theorem writePending_silent {fields : List (Bool × Frame)}
    (hfields : ∀ field ∈ fields, field.2 ∈ commands) :
    ∀ session : Session, Silent session.writes id (writePending fields session) := by
  induction fields with
  | nil => exact fun session => Wrote.refl _
  | cons field fields ih =>
      intro session
      rcases List.forall_mem_cons.mp hfields with ⟨hfield, hrest⟩
      rcases field with ⟨_ | _, command⟩
      · exact ih hrest session
      · have hwrite := session.writeAll_writes .identity
          fun _ => List.mem_map_of_mem (f := Frame.encode) hfield
        apply (hwrite.imp (fun _ h => h) ?_).bind
        · exact fun wrote hwrote => hwrote.silent (ih hrest wrote)
        · rintro lost ⟨accepted, -, hlost⟩
          exact hlost

theorem readPending_silent {fields : List (Bool × Frame)} :
    ∀ session : Session, Silent session.writes Prod.fst (readPending fields session) := by
  induction fields with
  | nil => exact fun session => Wrote.refl _
  | cons field fields ih =>
      intro session
      rcases field with ⟨_ | _, command⟩
      · apply (ih session).bind
        exact fun read hread => hread
      · apply session.readRawFrame_silent.bind
        rintro ⟨read, raw⟩ hread
        apply (hread.silent (read.failing_silent _)).bind
        intro first _
        apply (hread.silent (ih read)).bind
        exact fun last hlast => hlast

/-- Identification writes nothing for the client. -/
theorem applyIdentity_silent (session : Session) :
    Silent session.writes id session.applyIdentity := by
  have hfields : ∀ field ∈ session.pending.zip commands, field.2 ∈ commands :=
    fun field hfield => (List.of_mem_zip hfield).2
  apply (writePending_silent hfields session).bind
  intro wrote hwrote
  apply (hwrote.silent wrote.operate_silent).bind
  intro flushed hflushed
  apply (hflushed.silent (readPending_silent flushed)).bind
  exact fun last hlast => hlast

/-- Whether it succeeds or not, an exchange writes its command once, and otherwise only
identification commands.  Where it succeeds, the whole command was accepted. -/
theorem exchange_writes (session : Session) (command : Bytes) (argv : List String) :
    Ends (fun read => Wrote [⟨.client, command, command⟩] session.writes read.1.writes)
      (fun lost => ∃ accepted, accepted <+: command ∧
        LeftAfter [⟨.client, command, accepted⟩] session.writes lost)
      (session.exchange command argv) := by
  apply (session.writeAll_writes .client (by rintro ⟨⟩)).bind
  intro wrote hwrote
  -- After the command every failure leaves it written whole.
  have hwhole : ∀ {α : Type} {P : α → Prop} {x : Except Lost α},
      Ends P (LeftAfter [⟨.client, command, command⟩] session.writes) x →
      Ends P (fun lost => ∃ accepted, accepted <+: command ∧
        LeftAfter [⟨.client, command, accepted⟩] session.writes lost) x :=
    fun hx => hx.imp (fun _ h => h) fun _ hlost => ⟨command, List.prefix_rfl, hlost⟩
  apply (hwhole (hwrote.silent wrote.operate_silent)).bind
  intro flushed hflushed
  apply (hwhole (hflushed.silent flushed.readRawFrame_silent)).bind
  rintro ⟨last, raw⟩ hlast
  dsimp only
  split
  · have hretried :=
      applyIdentity_silent { last with pending := (retryAfter last.pending argv raw).1 }
    apply (hwhole (Wrote.silent hlast hretried)).bind
    exact fun identified hidentified => hidentified
  · exact hlast

end Session

end EvilResp
