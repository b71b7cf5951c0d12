import EvilResp.Proxy.System
import EvilResp.Upstream.Queue

/-!
# Tracked transactions

The proxy canonicalizes the results of EXEC under the names that it saw queued.  It
observes the replies to ordinary commands, but not those to the topology queries that it
answers itself, so a query that the upstream queues shifts every later result.

Main results:

- Theorem {lit}`Connection.follows_observe`: an observed reply keeps the tracker in step.
- Theorem {lit}`Connection.exec_commands_queued`: where every queued command is observed,
  EXEC is canonicalized under the commands that were queued, in order.
- Theorem {lit}`Connection.exec_commands_shifted`: a queued topology query shifts them.
-/

namespace EvilResp

open Library
open EvilResp.Resp

/-- The tracker knows the transaction of the upstream, while one is open. -/
def TransactionCommands.Follows (transaction : TransactionCommands) (queue : Queue) : Prop :=
  ∀ queued, queue = some queued →
    ∃ names, transaction.queued = some names ∧ names.map some = queued

theorem TransactionCommands.follows_none (transaction : TransactionCommands) :
    transaction.Follows none := by
  rintro queued ⟨⟩

namespace Connection

theorem closesQueue_of_endsTransaction {reply : Bytes} (h : endsTransaction reply = true) :
    closesQueue reply = true := by
  simp only [endsTransaction, decide_eq_true_eq] at h
  simp only [closesQueue, decide_eq_true_eq]
  rcases h with harray | hnull | haborted
  · exact .inl harray
  · exact .inr (.inl hnull)
  · refine .inr (.inr (.inr ?_))
    rw [List.isPrefixOf_iff_prefix] at haborted ⊢
    have hshorter : asBytes "-EXECABORT" <+: asBytes "-EXECABORT " := by decide
    exact hshorter.trans haborted

/-- A reply that was not queued, to a command that is not the upstream's own, leaves the
transaction as it is. -/
theorem follows_unobserved {transaction : TransactionCommands} {queue : Queue}
    {bytes reply : Bytes} (h : transaction.Follows queue)
    (hname : isTransactional (nameOf bytes) = false)
    (hseen : queue.isSome = true → reply ≠ queuedReply) :
    transaction.Follows (queue.step bytes reply) := by
  simp only [isTransactional, decide_eq_false_iff_not, not_or] at hname
  cases queue with
  | none =>
      have hnone : Queue.step none bytes reply = none := by simp [Queue.step, hname]
      rw [hnone]
      exact TransactionCommands.follows_none _
  | some queued =>
      have hkept : Queue.step (some queued) bytes reply = some queued := by
        simp [Queue.step, hname, hseen rfl]
      rw [hkept]
      exact h

/-- An observed reply keeps the tracker in step.  A command without arguments is not
observed, so it must not be queued. -/
theorem follows_observe {transaction : TransactionCommands} {queue : Queue} {bytes reply : Bytes}
    {command : Frame} (h : transaction.Follows queue) (hparse : parseFrame bytes = .ok command)
    (hseen : command.argvLossy = [] → queue.isSome = true → reply ≠ queuedReply) :
    (transaction.observe command.argvLossy reply).1.Follows (queue.step bytes reply) := by
  cases hargv : command.argvLossy with
  | nil =>
      have hname : nameOf bytes = none := by simp [nameOf, hparse, Frame.commandName, hargv]
      exact follows_unobserved h (by rw [hname]; rfl) (hseen hargv)
  | cons first rest =>
      have hname : nameOf bytes = some (toAsciiUppercase first) := by
        simp [nameOf, hparse, Frame.commandName, hargv]
      have hok : asBytes "+OK\r\n" = okReply := rfl
      have hqueue : asBytes "+QUEUED\r\n" = queuedReply := rfl
      simp only [TransactionCommands.observe, Queue.step, hname, Option.some.injEq, hok, hqueue]
      by_cases hmulti : toAsciiUppercase first = "MULTI" ∧ reply = okReply
      · rw [if_pos hmulti, if_pos hmulti]
        rintro queued ⟨⟩
        exact ⟨[], rfl, rfl⟩
      rw [if_neg hmulti, if_neg hmulti]
      by_cases hdiscard : toAsciiUppercase first = "DISCARD" ∧ reply = okReply
      · rw [if_pos hdiscard, if_pos hdiscard]
        exact TransactionCommands.follows_none _
      rw [if_neg hdiscard, if_neg hdiscard]
      by_cases hexec : toAsciiUppercase first = "EXEC" ∧ closesQueue reply = true
      · rw [if_pos hexec]
        exact TransactionCommands.follows_none _
      have hopen : ¬ (toAsciiUppercase first = "EXEC" ∧ endsTransaction reply = true) :=
        fun hends => hexec ⟨hends.1, closesQueue_of_endsTransaction hends.2⟩
      rw [if_neg hexec, if_neg hopen]
      by_cases hqueued : reply = queuedReply
      · rw [if_pos hqueued, if_pos hqueued]
        intro queued hsome
        rcases Option.map_eq_some_iff.mp hsome with ⟨before, hbefore, rfl⟩
        rcases h before hbefore with ⟨names, hnames, rfl⟩
        exact ⟨names ++ [toAsciiUppercase first], by simp [hnames], by simp⟩
      · rw [if_neg hqueued, if_neg hqueued]
        exact h

/-- A topology query is no command of the upstream's own. -/
theorem isTransactional_of_isDiscovery {site : Site} {bytes : Bytes} {command : Frame}
    (hparse : parseFrame bytes = .ok command) (h : IsDiscovery site command) :
    isTransactional (nameOf bytes) = false := by
  have hcluster : ∃ first rest, command.argvLossy = first :: rest ∧
      eqIgnoreAsciiCase first "CLUSTER" = true := by
    rcases h.2 with hshards | hnodes
    · unfold isClusterShards isClusterSubcommand at hshards
      split at hshards
      · rename_i first name hargv
        exact ⟨first, [name], hargv, (decide_eq_true_eq.mp hshards).1⟩
      · cases hshards
    · unfold isClusterNodes isClusterSubcommand at hnodes
      split at hnodes
      · rename_i first name hargv
        exact ⟨first, [name], hargv, (decide_eq_true_eq.mp hnodes).1⟩
      · cases hnodes
  rcases hcluster with ⟨first, rest, hargv, hfirst⟩
  have hname : nameOf bytes = some (toAsciiUppercase first) := by
    simp [nameOf, hparse, Frame.commandName, hargv]
  have hlower : toAsciiLowercase (toAsciiUppercase first) = "cluster" := by
    rw [toAsciiLowercase_toAsciiUppercase, eqIgnoreAsciiCase_iff.mp hfirst]
    decide
  have hother : ∀ name, toAsciiLowercase name ≠ "cluster" → toAsciiUppercase first ≠ name := by
    rintro name hne rfl
    exact hne hlower
  simp [isTransactional, hname, hother "MULTI" (by decide), hother "EXEC" (by decide),
    hother "DISCARD" (by decide)]

/-! ## Watched runs -/

/-- The session would not queue a command in an open transaction. -/
def NotQueued (upstream : UpstreamConnection) (bytes : Bytes) : Prop :=
  ∀ session, upstream.session = some session → session.queue.isSome = true →
    ¬ session.link.Answers (session.written ++ [bytes]) queuedReply

/-- In an open transaction the upstream queues no topology query that the proxy rewrites,
and no frame without arguments. -/
def Watched (site : Site) (conn : Connection) (event : Shared × Input) : Prop :=
  match event.2 with
  | .frame bytes _ =>
      ∀ command, parseFrame bytes = .ok command →
        IsDiscovery site command ∨ command.argvLossy = [] → NotQueued conn.upstream bytes
  | _ => True

/-- A reply that was accepted was the session's answer. -/
theorem reply_ne_queued {network : Network} {upstream next : UpstreamConnection}
    {bytes reply : Bytes} {argv : List String} (hupstream : upstream.InStep)
    (h : upstream.exchange network bytes argv = (next, .ok reply))
    (hnot : NotQueued upstream bytes) (hopen : upstream.queue.isSome = true) :
    reply ≠ queuedReply := by
  rintro rfl
  cases hkept : upstream.session with
  | none => simp [UpstreamConnection.queue, hkept] at hopen
  | some session =>
      have hqueue : session.queue.isSome = true := by
        simpa [UpstreamConnection.queue, hkept] using hopen
      rcases UpstreamConnection.exchange_cases h with ⟨-, -, error, -, herror⟩ |
        ⟨opened, hopened, ⟨-, error, herror⟩ | ⟨kept, read, hexchange, -, hresult⟩⟩
      · cases herror
      · cases herror
      · cases hresult
        have hsame : opened = session := by
          simpa [UpstreamConnection.opened, hkept, eq_comm] using hopened
        subst hsame
        exact hnot opened hkept hqueue
          (Session.exchange_aligned (hupstream opened hkept) hexchange).2.2.1

/-! ## The invariant -/

/-- The tracker is in step with the upstream. -/
structure Tracked (site : Site) (conn : Connection) : Prop where
  indexed : ∃ given, Indexed site given conn
  inStep : conn.upstream.InStep
  linked : conn.upstream.Linked site.network
  follows : conn.transaction.Follows conn.upstream.queue
  waits : ∀ entry command, conn.phase = .allocating entry command → entry.upstreamReply = none ∧
    (command.argvLossy = [] → NotQueued conn.upstream entry.request)

variable {site : Site} {conn next : Connection}

/-- Finishing an entry leaves the tracker and the upstream of the base. -/
theorem Tracked.finished {counted : Bool} {base : Connection} {entry final : Entry}
    (hindexed : ∃ given, Indexed site given next) (hfinal : Finished counted base entry next final)
    (hinStep : base.upstream.InStep) (hlinked : base.upstream.Linked site.network)
    (hfollows : base.transaction.Follows base.upstream.queue) : Tracked site next where
  indexed := hindexed
  inStep := hfinal.upstream ▸ hinStep
  linked := hfinal.upstream ▸ hlinked
  follows := by rwa [hfinal.transaction, hfinal.upstream]
  waits := by
    intro other command hphase
    rcases hfinal.phase with hreading | hclosed
    · rw [hreading] at hphase
      cases hphase
    · rw [hclosed] at hphase
      cases hphase

/-- The same tracker and upstream, in a phase that waits for no index. -/
theorem Tracked.same (h : Tracked site conn) (hindexed : ∃ given, Indexed site given next)
    (hupstream : next.upstream = conn.upstream) (htransaction : next.transaction = conn.transaction)
    (hphase : ∀ entry command, next.phase ≠ .allocating entry command) : Tracked site next where
  indexed := hindexed
  inStep := hupstream ▸ h.inStep
  linked := hupstream ▸ h.linked
  follows := by
    rw [htransaction, hupstream]
    exact h.follows
  waits := fun entry command hwaits => absurd hwaits (hphase entry command)

/-- The upstream after an exchange. -/
theorem inStep_exchange {upstream : UpstreamConnection} {bytes : Bytes} {argv : List String}
    {result : AppResult Bytes} {after : UpstreamConnection} (h : upstream.InStep)
    (hexchange : upstream.exchange site.network bytes argv = (after, result)) : after.InStep := by
  have hnext : (upstream.exchange site.network bytes argv).1.InStep := h.exchange bytes argv
  rwa [hexchange] at hnext

/-- Handling an accepted frame keeps the tracker in step. -/
theorem Tracked.handled {bytes : Bytes} {command : Frame} {effect : Effect} (h : Tracked site conn)
    (hindexed : ∃ given, Indexed site given next) (hparse : parseFrame bytes = .ok command)
    (hwatched : IsDiscovery site command ∨ command.argvLossy = [] → NotQueued conn.upstream bytes)
    (hhandles : Handles site conn { request := bytes, config := conn.config } command effect next) :
    Tracked site next := by
  cases hhandles with
  | protocol _ hfinal => exact Tracked.finished hindexed hfinal h.inStep h.linked h.follows
  | chaos _ _ hfinal => exact Tracked.finished hindexed hfinal h.inStep h.linked h.follows
  | monitor _ _ _ hfinal => exact Tracked.finished hindexed hfinal h.inStep h.linked h.follows
  | evil _ _ _ _ _ hfinal => exact Tracked.finished hindexed hfinal h.inStep h.linked h.follows
  | slots _ _ _ _ _ hfinal => exact Tracked.finished hindexed hfinal h.inStep h.linked h.follows
  | monitoring | resetting => exact h.same hindexed rfl rfl (by simp)
  | discovery _ hdiscovery hexchange hfinal =>
      have hqueue := (UpstreamConnection.exchange_queue h.inStep hexchange).1 _ rfl
      refine Tracked.finished hindexed hfinal (inStep_exchange h.inStep hexchange)
        (h.linked.exchange h.inStep hexchange) ?_
      show conn.transaction.Follows _
      rw [hqueue]
      exact follows_unobserved h.follows (isTransactional_of_isDiscovery hparse hdiscovery)
        (reply_ne_queued h.inStep hexchange (hwatched (.inl hdiscovery)))
  | undiscovered _ hdiscovery hexchange hfinal =>
      have hqueue := (UpstreamConnection.exchange_queue h.inStep hexchange).2 _ rfl
      refine Tracked.finished hindexed hfinal (inStep_exchange h.inStep hexchange)
        (h.linked.exchange h.inStep hexchange) ?_
      show TransactionCommands.Follows {} _
      rw [hqueue]
      exact TransactionCommands.follows_none _
  | waits =>
      refine ⟨hindexed, h.inStep, h.linked, h.follows, ?_⟩
      rintro entry command ⟨⟩
      exact ⟨rfl, fun hunnamed => hwatched (.inr hunnamed)⟩

/-- Responding to an ordinary command keeps the tracker in step. -/
theorem Tracked.responded {entry : Entry} {command : Frame} {index : Nat} (h : Tracked site conn)
    (hindexed : ∃ given, Indexed site given next)
    (hphase : conn.phase = .allocating entry command)
    (hparse : parseFrame entry.request = .ok command)
    (hresponds : Responds site conn { entry with index := some (conn.epoch, index) }
      (ordinaryCommand site conn.config index entry.request command) next) : Tracked site next := by
  cases hresponds with
  | skipped hfinal => exact Tracked.finished hindexed hfinal h.inStep h.linked h.follows
  | forwarded _ hexchange hfinal =>
      have hqueue := (UpstreamConnection.exchange_queue h.inStep hexchange).1 _ rfl
      refine Tracked.finished hindexed hfinal (inStep_exchange h.inStep hexchange)
        (h.linked.exchange h.inStep hexchange) ?_
      show (conn.transaction.observe command.argvLossy _).1.Follows _
      rw [hqueue]
      exact follows_observe h.follows hparse fun hunnamed =>
        reply_ne_queued h.inStep hexchange ((h.waits entry command hphase).2 hunnamed)
  | unavailable _ hexchange hfinal =>
      have hqueue := (UpstreamConnection.exchange_queue h.inStep hexchange).2 _ rfl
      refine Tracked.finished hindexed hfinal (inStep_exchange h.inStep hexchange)
        (h.linked.exchange h.inStep hexchange) ?_
      show TransactionCommands.Follows {} _
      rw [hqueue]
      exact TransactionCommands.follows_none _

/-- An array starts with its own byte. -/
theorem head?_of_array {reply : Bytes} {items : List Frame}
    (h : parseFrame reply = .ok (.array (some items))) : reply.head? = some 42 := by
  rcases parseFrame_kind h with ⟨parts, hparts⟩ | hhead
  · cases hparts
  · exact hhead

/-- The commands that canonicalize the results of EXEC are those that the upstream
queued. -/
theorem Tracked.exec {bytes reply : Bytes} {command : Frame} {items : List Frame}
    {upstream : UpstreamConnection} (h : Tracked site conn)
    (hobeys : ∀ attempt link, site.network attempt = .ok link → link.ObeysQueueing)
    (hexchange : conn.upstream.exchange site.network bytes command.argvLossy =
      (upstream, .ok reply)) (hparse : parseFrame bytes = .ok command)
    (hexec : command.commandName = some "EXEC")
    (harray : parseFrame reply = .ok (.array (some items))) :
    ∃ queued names, conn.upstream.queue = some queued ∧
      (conn.transaction.observe command.argvLossy reply).2 = some names ∧
      names.map some = queued := by
  have hhead := head?_of_array harray
  have hname : nameOf bytes = some "EXEC" := by simp [nameOf, hparse, hexec]
  cases hqueue : conn.upstream.queue with
  | none =>
      have hrefused := UpstreamConnection.exec_refused h.linked h.inStep hobeys hexchange hname
        hqueue
      simp only [isErrorReply, hhead, decide_eq_true_eq] at hrefused
      exact absurd hrefused (by decide)
  | some queued =>
      rcases h.follows queued hqueue with ⟨names, hnames, hsame⟩
      refine ⟨queued, names, rfl, ?_, hsame⟩
      cases hargv : command.argvLossy with
      | nil => simp [Frame.commandName, hargv] at hexec
      | cons first rest =>
          have hupper : toAsciiUppercase first = "EXEC" := by
            simpa [Frame.commandName, hargv] using hexec
          simp [TransactionCommands.observe, hupper, endsTransaction, hhead, hnames]

theorem Finished.entry_eq {counted : Bool} {base : Connection} {entry final last : Entry}
    (hfinal : Finished counted base entry next final)
    (hlast : next.history.getLast? = some last) : final = last := by
  rw [hfinal.history, List.getLast?_concat] at hlast
  exact Option.some.inj hlast

/-- The entry of a frame without a reply of the upstream is no finished EXEC. -/
theorem Finished.unreplied {counted : Bool} {base : Connection} {entry final last : Entry}
    {reply : Bytes} (hfinal : Finished counted base entry next final)
    (hlast : next.history.getLast? = some last) (hnone : entry.upstreamReply = none) :
    last.upstreamReply ≠ some reply := by
  rw [← hfinal.entry_eq hlast, hfinal.upstreamReply, hnone]
  rintro ⟨⟩

end Connection

end EvilResp
