import EvilResp.Mutation.Readable
import EvilResp.Proxy.Seeded
import EvilResp.Proxy.Tamper
import EvilResp.Proxy.Whole

/-!
# The stream of replies

The bytes that a client gets divide into one frame for each of its commands, each followed by
the extra replies that were planned after it.  Only a length fault, a rejection that repeats a
line break of the client, and a reply that is too large or nested too deep can break this.

Main results:

- Theorem {lit}`Connection.Replied.stepped`: the replies of the upstream are frames.
- Theorem {lit}`Connection.Whole.frames`: what a client got for one command divides into frames.
- Theorem {lit}`System.client_stream_divides`: so does the stream of every connection of a
  standalone upstream.
-/

namespace EvilResp

open Library
open EvilResp.Resp

/-! ## Replies of the upstream -/

/-- What a session read is one frame. -/
theorem Session.isFrame_of_exchange {session next : Session} {command reply : Bytes}
    {argv : List String} (h : session.exchange command argv = .ok (next, reply)) :
    IsFrame reply := by
  rcases bind_eq_ok_iff.mp h with ⟨written, -, h⟩
  rcases bind_eq_ok_iff.mp h with ⟨flushed, -, h⟩
  rcases bind_eq_ok_iff.mp h with ⟨⟨after, raw⟩, hraw, h⟩
  rcases readRawFrame_cases hraw with ⟨rest, hread, -⟩
  have hframe : IsFrame raw := isFrame_of_readRawFrame hread
  dsimp only at h
  split at h
  · rcases bind_eq_ok_iff.mp h with ⟨identified, -, h⟩
    cases h
    exact hframe
  · cases h
    exact hframe

theorem UpstreamConnection.isFrame_of_exchange {network : Network}
    {upstream next : UpstreamConnection} {command reply : Bytes} {argv : List String}
    (h : upstream.exchange network command argv = (next, .ok reply)) : IsFrame reply := by
  rcases exchange_cases h with ⟨-, -, error, -, herror⟩ |
    ⟨session, -, ⟨-, error, herror⟩ | ⟨kept, read, hexchange, -, hok⟩⟩
  · cases herror
  · cases herror
  · cases hok
    exact Session.isFrame_of_exchange hexchange

namespace Connection

/-- The reply that was read for an entry is one frame. -/
def FromUpstream (entry : Entry) : Prop :=
  ∀ reply, entry.upstreamReply = some reply → IsFrame reply

/-- The replies that were read for the commands of a connection are frames. -/
structure Replied (conn : Connection) : Prop where
  pending : ∀ entry ∈ conn.pending, FromUpstream entry
  history : ∀ entry ∈ conn.history, FromUpstream entry

variable {site : Site} {conn next base : Connection} {entry final : Entry} {command : Frame}

theorem Finished.replied {counted : Bool} (h : Finished counted base entry next final)
    (hhistory : ∀ entry ∈ base.history, FromUpstream entry) (hentry : FromUpstream entry) :
    Replied next where
  pending := by simp [h.pending]
  history := by
    intro other hother
    rw [h.history, List.mem_append, List.mem_singleton] at hother
    rcases hother with hold | rfl
    · exact hhistory other hold
    · intro reply hreply
      exact hentry reply (h.upstreamReply ▸ hreply)

theorem Handles.replied {effect : Effect} (h : Handles site conn entry command effect next)
    (hhistory : ∀ entry ∈ conn.history, FromUpstream entry) (hentry : entry.upstreamReply = none) :
    Replied next := by
  have hnone : FromUpstream entry := by simp [FromUpstream, hentry]
  cases h with
  | protocol _ hfinal | chaos _ _ hfinal => exact hfinal.replied hhistory hnone
  | monitor _ _ _ hfinal => exact hfinal.replied hhistory hnone
  | monitoring => exact ⟨List.forall_mem_singleton.mpr hnone, hhistory⟩
  | resetting => exact ⟨List.forall_mem_singleton.mpr hnone, hhistory⟩
  | evil _ _ _ _ _ hfinal | slots _ _ _ _ _ hfinal => exact hfinal.replied hhistory hnone
  | discovery _ _ hexchange hfinal =>
      apply hfinal.replied hhistory
      intro reply hreply
      cases hreply
      exact UpstreamConnection.isFrame_of_exchange hexchange
  | undiscovered _ _ _ hfinal => exact hfinal.replied hhistory hnone
  | waits => exact ⟨List.forall_mem_singleton.mpr hnone, hhistory⟩

theorem Responds.replied {numbered : Command} (h : Responds site conn entry numbered next)
    (hhistory : ∀ entry ∈ conn.history, FromUpstream entry) (hentry : FromUpstream entry) :
    Replied next := by
  cases h with
  | skipped hfinal => exact hfinal.replied hhistory hentry
  | forwarded _ hexchange hfinal =>
      apply hfinal.replied hhistory
      intro reply hreply
      cases hreply
      exact UpstreamConnection.isFrame_of_exchange hexchange
  | unavailable _ _ hfinal => exact hfinal.replied hhistory hentry

/-- The replies of the upstream are frames. -/
theorem Replied.stepped {given : List (Nat × Nat)} {shared shared' : Shared} {input : Input}
    {effect : Effect} (h : Replied conn) (hindexed : Indexed site given conn)
    (hstep : conn.step site shared input = some (effect, shared', next)) : Replied next := by
  have hpending := h.pending
  cases step_cases hstep with
  | refused _ | hangup _ => exact ⟨by simp [Connection.pending], h.history⟩
  | accepted _ _ _ hhandles => exact hhandles.replied h.history rfl
  | published hphase =>
      simp only [Connection.pending, hphase, List.mem_singleton, forall_eq] at hpending
      rename_i entry text
      rcases publish_cases conn entry text with ⟨script, accepted, hnext⟩ |
        ⟨fingerprints, final, hfinal, -⟩
      · rw [hnext]
        exact ⟨List.forall_mem_singleton.mpr hpending, h.history⟩
      · exact hfinal.replied h.history hpending
  | reset hphase =>
      simp only [Connection.pending, hphase, List.mem_singleton, forall_eq] at hpending
      rename_i entry response
      rcases hindexed.own entry (.inl ⟨response, hphase⟩) with ⟨-, hterminal, -⟩
      rcases finished_finishReset conn (shared.resetEpoch + 1) hterminal response with
        ⟨fingerprints, final, hfinal, -⟩
      exact hfinal.replied h.history hpending
  | stale hphase _ =>
      simp only [Connection.pending, hphase, List.mem_singleton, forall_eq] at hpending
      rename_i entry command _
      rcases hindexed.waits entry command hphase with ⟨hfresh, -⟩
      exact (finished_closed conn hfresh).replied h.history hpending
  | allocated hphase _ hresponds =>
      simp only [Connection.pending, hphase, List.mem_singleton, forall_eq] at hpending
      rename_i entry command _
      rcases hindexed.waits entry command hphase with ⟨hfresh, -⟩
      exact (hresponds hfresh).replied h.history hpending

theorem kept_replied : System.Kept fun _ conn => Replied conn where
  begins := fun site shared script => ⟨by simp [Connection.pending, Connection.new], by
    simp [Connection.new]⟩
  keeps := fun hindexed hreplied hstep => hreplied.stepped hindexed hstep

/-! ## Single replies -/

theorem isFrame_of_singleFrame {f : Frame} (h : f.SingleFrame)
    (hsize : f.encode.length ≤ maxFrameBytes) : IsFrame f.encode :=
  isFrame_of_readRawFrame (h hsize).2

theorem isFrame_unavailableReply : IsFrame unavailableReply := by
  have hread : Resp.readRawFrame unavailableReply = .ok (unavailableReply, []) := by
    decide +kernel
  exact isFrame_of_readRawFrame hread

theorem isFrame_extraReply : IsFrame extraReply := by
  have hread : Resp.readRawFrame extraReply = .ok (extraReply, []) := by
    decide +kernel
  exact isFrame_of_readRawFrame hread

/-- A local command of a standalone upstream is answered with one frame, unless its rejection
repeats a line break. -/
theorem LocalReply.isFrame {config : EvilConfig} {upstream : Option Bytes} {reply : Bytes}
    (h : LocalReply site config upstream command reply) (halone : site.localSlots = none)
    (hline : ∀ message, EvilConfig.RawError site.lib command.argvLossy message →
      SingleLine message) (hsize : reply.length ≤ maxFrameBytes) : IsFrame reply := by
  have hcluster : site.localSlots.isSome ≠ true := by simp [halone]
  cases h with
  | protocol fingerprints _ =>
      exact isFrame_of_singleFrame (singleFrame_applyDebugProtocol _ fingerprints _) hsize
  | chaos fingerprints _ =>
      exact isFrame_of_singleFrame (singleFrame_applyDebugChaos _ config fingerprints _) hsize
  | monitor _ _ =>
      have hsingle : monitorArityError.SingleFrame :=
        Frame.singleFrame_simpleError.mpr fun _ => singleLine_ofList rfl
      exact isFrame_of_singleFrame hsingle hsize
  | evil _ =>
      have hsingle := (@singleFrame_applyDebugEvil site.lib config command.argvLossy
        site.resetSupported).mpr fun message hraw _ => hline message hraw
      exact isFrame_of_singleFrame hsingle hsize
  | slots hslots _ =>
      rw [halone] at hslots
      cases hslots
  | shards hsome _ _ _ => exact absurd hsome hcluster
  | nodes hsome _ _ _ => exact absurd hsome hcluster
  | unavailable hdiscovery _ => exact absurd hdiscovery.1 hcluster

/-- The values of a reply can be changed without breaking it. -/
def KeepsFrames (config : EvilConfig) (upstream : Option Bytes) : Prop :=
  config.KeepsHeaders ∧ ∀ reply frame, upstream = some reply → parseFrame reply = .ok frame →
    frame.InlineFree ∧ frame.depth + config.slack ≤ maxFrameDepth

theorem isFrame_of_readableReply {levels : Nat} {reply : MutatedReply}
    (h : ReadableReply levels reply) (hlevels : levels ≤ maxFrameDepth)
    (hsize : reply.bytes.length ≤ maxFrameBytes) : IsFrame reply.bytes := by
  rcases h with ⟨f, hbytes, hf⟩
  rw [hbytes] at hsize ⊢
  exact (hf.mono hlevels).isFrame hsize

theorem readable_canonicalInput {levels : Nat} {mode : CanonicalizationMode}
    {execCommands : Option (List String)} {name : Option String} {f : Frame}
    (hf : Readable levels f) : Readable levels (canonicalInput mode execCommands name f) := by
  cases execCommands with
  | some commands => exact readable_canonicalizeTransactionReply hf
  | none => exact readable_canonicalizeReply hf

/-- What is made of a frame of the upstream is a frame. -/
theorem isFrame_of_mutateRelayed {config : EvilConfig} {command : Command} {reply : Bytes}
    {execCommands : Option (List String)} {response : Response} (hlib : site.lib.DisplaysDecimals)
    (hreply : IsFrame reply)
    (hkeeps : mutatesValues config command = true → KeepsFrames config (some reply))
    (h : mutateRelayed site config command (some reply) execCommands (baseReply none reply) =
      some response)
    (hsize : response.reply.bytes.length ≤ maxFrameBytes) : IsFrame response.reply.bytes := by
  unfold mutateRelayed at h
  split_ifs at h with hchanged hvalues
  · simp only [baseReply] at h
    cases hparse : parseFrame reply with
    | error error => simp [hparse] at h
    | ok frame =>
        rcases hkeeps hvalues with ⟨hheaders, hframes⟩
        rcases hframes reply frame rfl hparse with ⟨hinline, hdepth⟩
        have hread : Resp.readRawFrame reply = .ok (reply, []) := by
          simpa using hreply.readRawFrame []
        have hreadable := readable_of_readRawFrame hread hparse hinline
        have hfits : Readable frame.depth frame := ⟨hinline, hreadable.lfFree, le_rfl⟩
        simp only [hparse] at h
        rcases Option.bind_eq_some_iff.mp h with ⟨mutated, hmutated, hdone⟩
        cases hdone
        have hmade := Readable.mutateCommandReply hlib hheaders (readable_canonicalInput hfits)
          hmutated
        exact isFrame_of_readableReply hmade hdepth hsize
  · simp only [baseReply] at h
    cases hparse : parseFrame reply with
    | error error => simp [hparse] at h
    | ok frame =>
        simp only [hparse] at h
        cases h
        exact hreply
  · cases h
    exact hreply

/-- The reply that is chosen for a command of a standalone upstream is a frame. -/
theorem Chosen.isFrame {config : EvilConfig} {command : Command}
    {execCommands : Option (List String)} {upstream : Option Bytes} {response : Response}
    {plan : DeliveryPlan}
    (h : Chosen site config command execCommands upstream response plan)
    (halone : site.localSlots = none) (hlib : site.lib.DisplaysDecimals)
    (hupstream : ∀ reply, upstream = some reply → IsFrame reply)
    (hkeeps : mutatesValues config command = true → KeepsFrames config upstream)
    (hfault : plan.connectionFault = none)
    (hsize : response.reply.bytes.length ≤ maxFrameBytes) : IsFrame response.reply.bytes := by
  have hpre : preTopology site config command = some none := by
    rw [preTopology, halone]
  cases h with
  | fault hbefore =>
      have hsome := connectionFault_of_beforePlan hbefore
      rw [hfault] at hsome
      cases hsome
  | generated _ _ hgiven hresponse _ =>
      rw [hpre] at hgiven
      cases hgiven
      simp only [randomResponse, halone, Option.bind_eq_bind, Option.bind_some] at hresponse
      rcases Option.bind_eq_some_iff.mp hresponse with ⟨made, hmade, hdone⟩
      cases hdone
      exact isFrame_of_readableReply (readable_randomReply hlib hmade) (by decide) hsize
  | worked hbase hresponse _ =>
      cases hbase with
      | redirected hgiven =>
          rw [hpre] at hgiven
          cases hgiven
      | @relayed reply relayBytes topology hrelay htopology =>
          rw [normalizeClusterRedirection, if_pos (.inl (by simp [halone]))] at hrelay
          cases hrelay
          rw [relayTopology, halone] at htopology
          cases htopology
          exact isFrame_of_mutateRelayed hlib (hupstream reply rfl) hkeeps hresponse hsize

/-! ## Replies with their extra replies -/

/-- How many extra replies were planned after the reply of an entry. -/
def extras (entry : Entry) : Nat :=
  (entry.plan.map (·.extraReplyCount)).getD 0

/-- What the client got without the extra replies. -/
def ownReply (entry : Entry) : Bytes :=
  entry.accepted.take (entry.accepted.length - extras entry * extraReply.length)

/-- The frames that the client is to read for a command. -/
def frames (entry : Entry) : List Bytes :=
  ownReply entry :: List.replicate (extras entry) extraReply

/-- Nothing about a command breaks its reply: it is not too large, no rejection repeats a line
break, and where values are changed there are no length faults and enough levels. -/
structure Orderly (site : Site) (entry : Entry) : Prop where
  size : (ownReply entry).length ≤ maxFrameBytes
  rejection : ∀ command message, parseFrame entry.request = .ok command →
    EvilConfig.RawError site.lib command.argvLossy message → SingleLine message
  values : ∀ command, parseFrame entry.request = .ok command →
    entry.config.shouldMutateCommand command.commandName = true →
    entry.config.mode = .mutate ∨ entry.config.mode = .overflow →
    KeepsFrames entry.config entry.upstreamReply

/-- A reply that is a frame, with the extra replies after it. -/
theorem frames_of_reply {reply : Bytes}
    (haccepted : entry.accepted = reply ++ (List.replicate (extras entry) extraReply).flatten)
    (hsize : (ownReply entry).length ≤ maxFrameBytes)
    (hframe : reply.length ≤ maxFrameBytes → IsFrame reply) :
    entry.accepted = (frames entry).flatten ∧ ∀ raw ∈ frames entry, IsFrame raw := by
  have hlength : entry.accepted.length - extras entry * extraReply.length = reply.length := by
    simp [haccepted]
  have hown : ownReply entry = reply := by
    rw [ownReply, hlength, haccepted, List.take_left]
  constructor
  · rw [frames, hown, List.flatten_cons]
    exact haccepted
  · refine List.forall_mem_cons.mpr ⟨?_, ?_⟩
    · rw [hown] at hsize ⊢
      exact hframe hsize
    · intro raw hraw
      rw [(List.mem_replicate.mp hraw).2]
      exact isFrame_extraReply

/-- What a client got for one command divides into frames. -/
theorem Whole.frames (h : Whole site entry command)
    (hparse : parseFrame entry.request = .ok command)
    (halone : site.localSlots = none) (hlib : site.lib.DisplaysDecimals)
    (hupstream : FromUpstream entry) (horderly : Orderly site entry) :
    entry.accepted = (frames entry).flatten ∧ ∀ raw ∈ frames entry, IsFrame raw := by
  have hsize := horderly.size
  cases h with
  | direct _ hplan hreply =>
      have hextras : extras entry = 0 := by simp [extras, hplan]
      have haccepted : entry.accepted =
          entry.accepted ++ (List.replicate (extras entry) extraReply).flatten := by
        simp [hextras]
      apply frames_of_reply haccepted hsize
      exact hreply.isFrame halone fun message => horderly.rejection command message hparse
  | unavailable _ hplan _ haccepted =>
      have hextras : extras entry = 0 := by simp [extras, hplan]
      have hreply : entry.accepted =
          unavailableReply ++ (List.replicate (extras entry) extraReply).flatten := by
        simp [hextras, haccepted]
      exact frames_of_reply hreply hsize fun _ => isFrame_unavailableReply
  | @delivered epoch index response plan _ hplan hchosen hfault hcut haccepted =>
      have hextras : extras entry = plan.extraReplyCount := by simp [extras, hplan]
      have hwire : plan.wireBytes response.reply.bytes =
          response.reply.bytes ++ (List.replicate plan.extraReplyCount extraReply).flatten := by
        simp [DeliveryPlan.wireBytes, hfault, hcut, DeliveryPlan.cutAt]
      rw [← haccepted, ← hextras] at hwire
      apply frames_of_reply hwire hsize
      intro hfits
      refine hchosen.isFrame halone hlib hupstream ?_ hfault hfits
      intro hvalues
      have hmutates : entry.config.shouldMutateCommand command.commandName = true ∧
          (entry.config.mode = .mutate ∨ entry.config.mode = .overflow) := by
        simpa [mutatesValues, ordinaryCommand] using hvalues
      exact horderly.values command hparse hmutates.1 hmutates.2

end Connection

namespace System

open Connection

/-- Every connection of a run was accepted in it. -/
theorem accept_mem_of_run {actions : List Action} {system : System}
    (h : Machine.run step {} actions = some system) :
    ∀ (i : Nat) site conn, system.connections[i]? = some (site, conn) →
      ∃ script, Action.accept site script ∈ actions := by
  refine Machine.run_invariant (I := fun actions system => ∀ (i : Nat) site conn,
    system.connections[i]? = some (site, conn) →
      ∃ script, Action.accept site script ∈ actions) ?_ (by simp) h
  intro past system action next hpast hstep i other found hfound
  have hold : ∀ conn, system.connections[i]? = some (other, conn) →
      ∃ script, Action.accept other script ∈ past ++ [action] := by
    intro conn hconn
    rcases hpast i other conn hconn with ⟨script, hscript⟩
    exact ⟨script, List.mem_append_left _ hscript⟩
  cases action with
  | accept site script =>
      rcases getElem?_accept_cases hstep hfound with hconn | ⟨-, rfl, -⟩
      · exact hold found hconn
      · exact ⟨script, by simp⟩
  | act j input =>
      rcases step_act hstep with ⟨site, conn, effect, shared, conn', hconn, -, rfl⟩
      rcases getElem?_set_cases hconn hfound with ⟨rfl, rfl, -⟩ | ⟨-, hkept⟩
      · exact hold conn hconn
      · exact hold found hkept

/-- In every run, the bytes that a connection of a standalone upstream got for its commands so
far divide into frames in exactly one way: one frame for each command in turn, each followed by
the extra replies that were planned after it, and nothing is left over. -/
theorem client_stream_divides (actions : List Action) (system : System)
    (h : Machine.run step {} actions = some system) :
    ∀ (i : Nat) site conn, system.connections[i]? = some (site, conn) →
      site.localSlots = none → site.lib.DisplaysDecimals →
      ∀ past later, conn.passed = past ++ later → (∀ entry ∈ past, Orderly site entry) →
      ∀ rest, readFrames (past.flatMap frames).length (past.flatMap (·.accepted) ++ rest) =
        .ok (past.flatMap frames, rest) := by
  intro i site conn hconn halone hlib past later hpassed horderly rest
  have hwhole := ((kept_passed.each_run h).each i site conn hconn).whole
  have hreplied := ((kept_replied.each_run h).each i site conn hconn).history
  have hdivides : ∀ entry ∈ past, entry.accepted = (Connection.frames entry).flatten ∧
      ∀ raw ∈ Connection.frames entry, IsFrame raw := by
    intro entry hentry
    have hmem : entry ∈ conn.passed := by
      rw [hpassed]
      exact List.mem_append_left later hentry
    rcases hwhole entry hmem with ⟨command, hparse, hgot⟩
    exact hgot.frames hparse halone hlib (hreplied entry (mem_history_of_mem_passed hmem))
      (horderly entry hentry)
  have hstream : past.flatMap (·.accepted) = (past.flatMap Connection.frames).flatten := by
    rw [List.flatten_eq_flatMap, List.flatMap_assoc]
    apply List.flatMap_congr
    intro entry hentry
    rw [← List.flatten_eq_flatMap]
    exact (hdivides entry hentry).1
  rw [hstream]
  apply readFrames_flatten
  intro raw hraw
  rcases List.mem_flatMap.mp hraw with ⟨entry, hentry, hmem⟩
  exact (hdivides entry hentry).2 raw hmem

/-- A standalone upstream, and a library that prints decimals. -/
def decimalSite : Site :=
  { Site.acknowledging with lib := { (default : Externals) with displayF64 := fun _ => "0" } }

theorem displaysDecimals_decimalSite : decimalSite.lib.DisplaysDecimals := by
  intro bits hfinite
  show isDecimal "0" = true ∧ (asBytes "0").length ≤ 400
  decide

/-- A client that sent two commands reads two replies. -/
theorem client_stream_divides_ping :
    ∃ system conn, Machine.run step {} [.accept decimalSite [],
      .act 0 (.inline "PING" rfl), .act 0 .turn,
      .act 0 (.inline "PING" rfl), .act 0 .turn] = some system ∧
      system.connections[0]? = some (decimalSite, conn) ∧ conn.passed.length = 2 ∧
      readFrames (conn.passed.flatMap frames).length (conn.passed.flatMap (·.accepted) ++ []) =
        .ok (conn.passed.flatMap frames, []) := by
  have hrun : (Machine.run step {} [.accept decimalSite [],
      .act 0 (.inline "PING" rfl), .act 0 .turn,
      .act 0 (.inline "PING" rfl), .act 0 .turn]).any
        (fun system => system.connections[0]?.any fun found => found.2.passed.length = 2 ∧
          found.2.passed.all fun entry => entry.request = asBytes "PING\r\n" ∧
            entry.config.mode = .off ∧ (ownReply entry).length ≤ 5) := by
    decide +kernel
  rcases (Option.any_eq_true _ _).mp hrun with ⟨system, hsystem, hfound⟩
  rcases (Option.any_eq_true _ _).mp hfound with ⟨⟨site, conn⟩, hconn, hpassed⟩
  rcases of_decide_eq_true hpassed with ⟨hlength, hentries⟩
  obtain rfl : site = decimalSite := by
    rcases accept_mem_of_run hsystem 0 site conn hconn with ⟨script, hscript⟩
    simp at hscript
    exact hscript.1
  refine ⟨system, conn, hsystem, hconn, hlength, ?_⟩
  apply client_stream_divides _ system hsystem 0 decimalSite conn hconn rfl
  · exact displaysDecimals_decimalSite
  · exact (List.append_nil _).symm
  · intro entry hentry
    rcases of_decide_eq_true (List.all_eq_true.mp hentries entry hentry) with
      ⟨hrequest, hmode, hsize⟩
    have hargv : (parseFrame (asBytes "PING\r\n")).toOption.map (·.argvLossy) =
        some ["PING"] := by
      decide +kernel
    refine ⟨hsize.trans (by decide), ?_, ?_⟩
    · intro command message hparse hraw
      rw [← hrequest, hparse] at hargv
      rw [show command.argvLossy = ["PING"] from Option.some.inj hargv] at hraw
      cases hraw
    · intro command _ _ hvalues
      rw [hmode] at hvalues
      rcases hvalues with hvalues | hvalues <;> cases hvalues

end System

end EvilResp
