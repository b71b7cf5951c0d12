import EvilResp.Proxy.Reset

/-!
# Restarts

A reset starts the indexes again, so that what a connection does after it is what a new
connection with its settings does in a proxy that was just started.  The connections that were
there before are left behind: they close with their next command, and change nothing.

Main results:

- Theorem {lit}`Connection.step_rebase`: nothing depends on the number of the epoch or on what
  happened before it.
- Theorem {lit}`System.reset_restarts`: the run after a reset is a run of a new proxy.
-/

namespace EvilResp

open Library
open EvilResp.Resp

/-! ## Earlier epochs -/

/-- The entry, had there been more epochs before. -/
def Entry.rebase (epochs : Nat) (entry : Entry) : Entry :=
  { entry with index := entry.index.map fun given => (given.1 + epochs, given.2) }

/-- A phase in which so many resets happened before. -/
def Phase.rebase (epochs : Nat) : Phase → Phase
  | .reading => .reading
  | .resetting entry response => .resetting (entry.rebase epochs) response
  | .allocating entry command => .allocating (entry.rebase epochs) command
  | .monitoring entry => .monitoring (entry.rebase epochs)
  | .closed => .closed

/-- After a delivery the connection goes on or is closed, in every epoch. -/
theorem Phase.rebase_ite (epochs : Nat) (p : Prop) [Decidable p] :
    (if p then Phase.closed else .reading).rebase epochs = if p then .closed else .reading := by
  split_ifs <;> rfl

/-- Shared counters before which so many resets happened. -/
def Shared.rebase (epochs : Nat) (shared : Shared) : Shared :=
  { shared with resetEpoch := shared.resetEpoch + epochs }

namespace Connection

/-- The connection, had it gone through more epochs before, with a history of its own. -/
def rebase (epochs : Nat) (past : List Entry) (conn : Connection) : Connection :=
  { conn with
    epoch := conn.epoch + epochs
    phase := conn.phase.rebase epochs
    history := past ++ conn.history.map (Entry.rebase epochs) }

variable {site : Site} {epochs : Nat} {past : List Entry}

/-- Only the epoch counts the resets before. -/
@[simp] theorem rebase_epoch (conn : Connection) :
    (conn.rebase epochs past).epoch = conn.epoch + epochs := rfl

/-- The phase moves with its entry. -/
@[simp] theorem rebase_phase (conn : Connection) :
    (conn.rebase epochs past).phase = conn.phase.rebase epochs := rfl

/-- The settings stay. -/
@[simp] theorem rebase_config (conn : Connection) :
    (conn.rebase epochs past).config = conn.config := rfl

/-- The fingerprints stay. -/
@[simp] theorem rebase_fingerprints (conn : Connection) :
    (conn.rebase epochs past).fingerprints = conn.fingerprints := rfl

/-- The transaction stays. -/
@[simp] theorem rebase_transaction (conn : Connection) :
    (conn.rebase epochs past).transaction = conn.transaction := rfl

/-- The upstream stays. -/
@[simp] theorem rebase_upstream (conn : Connection) :
    (conn.rebase epochs past).upstream = conn.upstream := rfl

/-- The writer stays. -/
@[simp] theorem rebase_script (conn : Connection) :
    (conn.rebase epochs past).script = conn.script := rfl

/-- An entry is finished alike. -/
theorem finish_rebase (conn : Connection) (entry : Entry) (phase : Phase) :
    (conn.rebase epochs past).finish (entry.rebase epochs) (phase.rebase epochs) =
      (conn.finish entry phase).rebase epochs past := by
  simp [finish, rebase]

/-- A control reply is delivered alike. -/
theorem controlReply_rebase (conn : Connection) (entry : Entry) (bytes : Bytes) :
    (conn.rebase epochs past).controlReply (entry.rebase epochs) bytes =
      (conn.controlReply entry bytes).rebase epochs past := by
  unfold controlReply
  rw [rebase_script]
  split
  · rename_i script accepted _
    exact finish_rebase { conn with script } { entry with accepted } .reading
  · rename_i script accepted _ _
    exact finish_rebase { conn with script } { entry with accepted, terminal := true } .closed

/-- A counted reply is delivered alike. -/
theorem countedReply_rebase (conn : Connection) (entry : Entry) (bytes : Bytes) :
    (conn.rebase epochs past).countedReply (entry.rebase epochs) bytes =
      (conn.countedReply entry bytes).rebase epochs past := by
  unfold countedReply
  rw [rebase_script, rebase_fingerprints]
  rcases writeCounted conn.script conn.fingerprints bytes with
    ⟨script, fingerprints, accepted, error | done⟩
  · exact finish_rebase { conn with script, fingerprints } { entry with accepted, terminal := true }
      .closed
  · exact finish_rebase { conn with script, fingerprints } { entry with accepted } .reading

/-- A monitor starts alike. -/
theorem startMonitor_rebase (conn : Connection) (entry : Entry) (argv : List String) :
    (conn.rebase epochs past).startMonitor (entry.rebase epochs) argv =
      (conn.startMonitor entry argv).rebase epochs past := by
  unfold startMonitor
  split_ifs
  · exact countedReply_rebase conn entry _
  · rw [rebase_script, rebase_fingerprints]
    rcases writeCounted conn.script conn.fingerprints (Frame.simpleString "OK").encode with
      ⟨script, fingerprints, accepted, error | done⟩
    · exact finish_rebase { conn with script, fingerprints }
        { entry with accepted, terminal := true } .closed
    · rfl

/-- A line is delivered alike. -/
theorem publish_rebase (conn : Connection) (entry : Entry) (text : String) :
    (conn.rebase epochs past).publish (entry.rebase epochs) text =
      (conn.publish entry text).rebase epochs past := by
  unfold publish
  rw [rebase_script, rebase_fingerprints]
  rcases writeCounted conn.script conn.fingerprints (Frame.simpleString text).encode with
    ⟨script, fingerprints, accepted, error | done⟩
  · exact finish_rebase { conn with script, fingerprints }
      { entry with accepted := entry.accepted ++ accepted, terminal := true } .closed
  · rfl

/-- A reset is answered alike, in an epoch that is as much later. -/
theorem finishReset_rebase (conn : Connection) (epoch : Nat) (entry : Entry) (response : Bytes) :
    (conn.rebase epochs past).finishReset (epoch + epochs) (entry.rebase epochs) response =
      (conn.finishReset epoch entry response).rebase epochs past := by
  unfold finishReset
  dsimp only
  rw [rebase_script]
  split
  · rename_i script accepted _
    exact finish_rebase { conn with epoch, script, fingerprints := {} } { entry with accepted }
      .reading
  · rename_i script accepted _ _
    exact finish_rebase { conn with epoch, script } { entry with accepted, terminal := true } .closed

/-- A missing upstream is reported alike. -/
theorem unavailable_rebase (conn : Connection) (entry : Entry) :
    (conn.rebase epochs past).unavailable (entry.rebase epochs) =
      (conn.unavailable entry).rebase epochs past :=
  countedReply_rebase { conn with transaction := {} } entry unavailableReply

/-- A topology is answered alike. -/
theorem discover_rebase (conn : Connection) (entry : Entry) (argv : List String) :
    (conn.rebase epochs past).discover site (entry.rebase epochs) argv =
      (conn.discover site entry argv).rebase epochs past := by
  unfold discover
  dsimp only [Entry.rebase]
  rw [rebase_upstream]
  rcases conn.upstream.exchange site.network entry.request argv with ⟨upstream, error | reply⟩
  · exact unavailable_rebase { conn with upstream }
      { entry with forwarded := conn.wrote upstream }
  · dsimp only
    split
    · exact finish_rebase { conn with upstream } { entry with
        forwarded := conn.wrote upstream, upstreamReply := some reply } .closed
    · exact countedReply_rebase { conn with upstream } { entry with
        forwarded := conn.wrote upstream, upstreamReply := some reply } _

/-- A settings command is answered alike. -/
theorem debugEvil_rebase (conn : Connection) (entry : Entry) (command : Frame)
    (argv : List String) :
    (conn.rebase epochs past).debugEvil site (entry.rebase epochs) command argv =
      (conn.debugEvil site entry command argv).map id (rebase epochs past) := by
  unfold debugEvil
  rw [rebase_config]
  rcases applyDebugEvil site.lib conn.config argv site.resetSupported with ⟨config, result⟩
  dsimp only
  split_ifs
  · rfl
  · exact congrArg (Prod.mk _) (countedReply_rebase { conn with config } entry _)

/-- Every command goes to the same handler. -/
theorem dispatch_rebase (conn : Connection) (entry : Entry) (command : Frame) (argv : List String) :
    (conn.rebase epochs past).dispatch site (entry.rebase epochs) command argv =
      (conn.dispatch site entry command argv).map id (rebase epochs past) := by
  unfold dispatch
  split
  · rfl
  · split_ifs
    · exact congrArg (Prod.mk _) (countedReply_rebase conn entry _)
    · exact congrArg (Prod.mk _) (discover_rebase conn entry argv)
    · rfl

/-- What is done for a frame has the same effect in every epoch. -/
theorem handle_rebase (conn : Connection) (entry : Entry) (command : Frame) :
    (conn.rebase epochs past).handle site (entry.rebase epochs) command =
      (conn.handle site entry command).map id (rebase epochs past) := by
  unfold handle
  dsimp only
  split_ifs
  · exact congrArg (Prod.mk _) (controlReply_rebase conn entry _)
  · rw [rebase_config, rebase_fingerprints]
    rcases applyDebugChaos site.lib conn.config conn.fingerprints command.argvLossy with
      ⟨config, response⟩
    exact congrArg (Prod.mk _) (controlReply_rebase { conn with config } entry _)
  · exact congrArg (Prod.mk _) (startMonitor_rebase (conn.heard entry.request) entry _)
  · exact debugEvil_rebase (conn.heard entry.request) entry command _
  · exact dispatch_rebase (conn.heard entry.request) entry command _

/-- A frame is accepted alike. -/
theorem accept_rebase (conn : Connection) (shared : Shared) (bytes : Bytes) :
    (conn.rebase epochs past).accept site (shared.rebase epochs) bytes =
      (conn.accept site shared bytes).map id (rebase epochs past) := by
  have hepoch : (conn.rebase epochs past).epoch ≠ (shared.rebase epochs).resetEpoch ↔
      conn.epoch ≠ shared.resetEpoch := by
    simp [rebase, Shared.rebase]
  unfold accept
  split
  · rfl
  · split_ifs with hstale hother hother
    · rfl
    · exact absurd (hepoch.mp hstale) hother
    · exact absurd (hepoch.mpr hother) hstale
    · exact handle_rebase conn { request := bytes, config := conn.config } _

/-! ## Ordinary commands -/

/-- A response is delivered alike. -/
theorem deliverResponse_rebase (conn : Connection) (entry : Entry) (command : Command)
    (response : Response) (plan : DeliveryPlan) :
    (conn.rebase epochs past).deliverResponse site (entry.rebase epochs) command response plan =
      (conn.deliverResponse site entry command response plan).rebase epochs past := by
  unfold deliverResponse
  rw [rebase_script, rebase_fingerprints]
  cases hdelivery : deliver conn.script conn.fingerprints (plan.wireBytes response.reply.bytes)
    plan with
  | none =>
      simp only [hdelivery]
      exact finish_rebase conn entry .closed
  | some delivery =>
      simp [hdelivery, finish, rebase, Entry.rebase, Phase.rebase_ite]

/-- A response, or none, is delivered alike. -/
theorem respond_rebase (conn : Connection) (entry : Entry) (command : Command)
    (response : Option Response) :
    (conn.rebase epochs past).respond site (entry.rebase epochs) command response =
      (conn.respond site entry command response).rebase epochs past := by
  cases response with
  | none => exact finish_rebase conn entry .closed
  | some response =>
      unfold respond
      rw [rebase_config]
      dsimp only
      split
      · exact finish_rebase conn entry .closed
      · exact deliverResponse_rebase conn entry command response _

/-- A command is forwarded alike. -/
theorem forward_rebase (conn : Connection) (entry : Entry) (command : Command) :
    (conn.rebase epochs past).forward site (entry.rebase epochs) command =
      (conn.forward site entry command).rebase epochs past := by
  unfold forward
  dsimp only [Entry.rebase]
  rw [rebase_upstream, rebase_transaction, rebase_config]
  rcases conn.upstream.exchange site.network entry.request command.frame.argvLossy with
    ⟨upstream, error | reply⟩
  · exact unavailable_rebase { conn with upstream }
      { entry with forwarded := conn.wrote upstream }
  · dsimp only
    rcases conn.transaction.observe command.frame.argvLossy reply with ⟨transaction, execCommands⟩
    exact respond_rebase { conn with upstream, transaction } { entry with
      forwarded := conn.wrote upstream, upstreamReply := some reply, execCommands } command _

/-- An ordinary command is answered alike. -/
theorem ordinary_rebase (conn : Connection) (entry : Entry) (command : Command) :
    (conn.rebase epochs past).ordinary site (entry.rebase epochs) command =
      (conn.ordinary site entry command).rebase epochs past := by
  unfold ordinary
  rw [rebase_config]
  split
  · exact finish_rebase conn entry .closed
  · exact finish_rebase conn entry .closed
  · exact deliverResponse_rebase conn entry command _ _
  · split_ifs
    · exact respond_rebase conn entry command _
    · split
      · exact respond_rebase conn entry command _
      · exact forward_rebase conn entry command

/-! ## Steps -/

/-- Nothing depends on the number of the epoch or on what happened before it. -/
theorem step_rebase (conn : Connection) (shared : Shared) (input : Input) :
    (conn.rebase epochs past).step site (shared.rebase epochs) input =
      (conn.step site shared input).map fun taken =>
        (taken.1, taken.2.1.rebase epochs, taken.2.2.rebase epochs past) := by
  cases input with
  | frame bytes complete =>
      cases hphase : conn.phase with
      | reading => simp [step, hphase, Phase.rebase, accept_rebase]
      | resetting _ _ => simp [step, hphase, Phase.rebase]
      | allocating _ _ => simp [step, hphase, Phase.rebase]
      | monitoring _ => simp [step, hphase, Phase.rebase]
      | closed => simp [step, hphase, Phase.rebase]
  | hangup =>
      cases hphase : conn.phase with
      | reading => simp [step, hphase, Phase.rebase, rebase]
      | resetting _ _ => simp [step, hphase, Phase.rebase]
      | allocating _ _ => simp [step, hphase, Phase.rebase]
      | monitoring _ => simp [step, hphase, Phase.rebase]
      | closed => simp [step, hphase, Phase.rebase]
  | line text =>
      cases hphase : conn.phase with
      | reading => simp [step, hphase, Phase.rebase]
      | resetting _ _ => simp [step, hphase, Phase.rebase]
      | allocating _ _ => simp [step, hphase, Phase.rebase]
      | monitoring entry => simp [step, hphase, Phase.rebase, publish_rebase]
      | closed => simp [step, hphase, Phase.rebase]
  | turn =>
      cases hphase : conn.phase with
      | reading => simp [step, hphase, Phase.rebase]
      | resetting entry response =>
          have hnext : shared.resetEpoch + epochs + 1 = shared.resetEpoch + 1 + epochs := by omega
          simp [step, hphase, Phase.rebase, resetIncrementingState, Shared.rebase, hnext,
            finishReset_rebase]
      | allocating entry command =>
          have hallocate : (shared.rebase epochs).allocate (conn.epoch + epochs) =
              (shared.allocate conn.epoch).map fun given => (given.1, given.2.rebase epochs) := by
            unfold Shared.allocate
            split_ifs <;> simp_all [Shared.rebase]
          cases hgiven : shared.allocate conn.epoch with
          | none =>
              simp only [hgiven, Option.map_none] at hallocate
              simp only [step, rebase_phase, hphase, Phase.rebase, rebase_epoch, hallocate, hgiven,
                Option.map_some]
              rw [← finish_rebase]
              rfl
          | some given =>
              simp only [hgiven, Option.map_some] at hallocate
              simp only [step, rebase_phase, hphase, Phase.rebase, rebase_epoch, hallocate, hgiven,
                Option.map_some, ← ordinary_rebase]
              rfl
      | monitoring _ => simp [step, hphase, Phase.rebase]
      | closed => simp [step, hphase, Phase.rebase]

/-- A stale connection changes nothing that is shared, and stays as it is. -/
theorem stale_step {shared shared' : Shared} {conn next : Connection} {input : Input}
    {effect : Effect} (hstale : conn.epoch < shared.resetEpoch) (hquiet : conn.isResetting = false)
    (hstep : conn.step site shared input = some (effect, shared', next)) :
    shared' = shared ∧ next.epoch = conn.epoch ∧ next.isResetting = false := by
  cases step_cases hstep with
  | refused _ => exact ⟨rfl, rfl, rfl⟩
  | accepted _ hepoch _ _ => omega
  | hangup _ => exact ⟨rfl, rfl, rfl⟩
  | published hphase =>
      rename_i entry text
      rcases publish_cases conn entry text with ⟨script, accepted, hnext⟩ |
        ⟨fingerprints, final, hfinal, -⟩
      · rw [hnext]
        exact ⟨rfl, rfl, rfl⟩
      · exact ⟨rfl, hfinal.epoch, hfinal.not_resetting⟩
  | reset hphase => simp [isResetting, hphase] at hquiet
  | stale _ _ => exact ⟨rfl, rfl, rfl⟩
  | allocated _ hepoch _ => omega

end Connection

namespace System

open Connection

variable {first i epochs : Nat} {past : List Entry} {system next fresh : System}

/-- The step of a connection is a step of its system. -/
theorem step_of_connection {input : Input} {site : Site} {conn after : Connection}
    {effect : Effect} {shared : Shared} (hconn : system.connections[i]? = some (site, conn))
    (hstep : conn.step site system.shared input = some (effect, shared, after)) :
    ∃ next, system.step (.act i input) = some next ∧ next.shared = shared ∧
      next.connections = system.connections.set i (site, after) := by
  simp [step, act, hconn, hstep]

/-- The step of a new proxy that a step after a reset is, if it is none of a connection that
was left behind. -/
def replayOf (first i : Nat) : Action → Option Action
  | .accept site script => some (.accept site script)
  | .act j input =>
      if j = i then some (.act 0 input)
      else if j < first then none
      else some (.act (j - first + 1) input)

/-- A system goes on after a reset as a new proxy does. -/
structure Continues (first i epochs : Nat) (past : List Entry) (system fresh : System) : Prop where
  known : i < first
  shared : system.shared = fresh.shared.rebase epochs
  resumed : ∃ site conn, fresh.connections[0]? = some (site, conn) ∧
    system.connections[i]? = some (site, conn.rebase epochs past)
  joined : ∀ k, system.connections[first + k]? =
    fresh.connections[k + 1]?.map fun member => (member.1, member.2.rebase epochs [])
  size : system.connections.length + 1 = first + fresh.connections.length
  left : ∀ j < first, j ≠ i → ∃ site conn, system.connections[j]? = some (site, conn) ∧
    conn.epoch < epochs ∧ conn.isResetting = false

/-- A client that is accepted after the reset is accepted by the new proxy. -/
theorem Continues.accepted {site : Site} {script : List WriteEvent}
    (h : Continues first i epochs past system fresh)
    (hstep : system.step (.accept site script) = some next) :
    ∃ other, fresh.step (.accept site script) = some other ∧
      Continues first i epochs past next other := by
  have hknown := h.known
  have hsize := h.size
  have hnew : Connection.new site system.shared script =
      (Connection.new site fresh.shared script).rebase epochs [] := by
    rw [h.shared]
    rfl
  cases hstep
  refine ⟨_, rfl, hknown, h.shared, ?_, ?_, ?_, ?_⟩
  · rcases h.resumed with ⟨site', conn, hfirst, hconn⟩
    refine ⟨site', conn, ?_, ?_⟩
    · rw [List.getElem?_append_left (List.getElem?_eq_some_iff.mp hfirst).1]
      exact hfirst
    · rw [List.getElem?_append_left (List.getElem?_eq_some_iff.mp hconn).1]
      exact hconn
  · intro k
    rcases Nat.lt_or_ge (first + k) system.connections.length with hold | hlast
    · rw [List.getElem?_append_left hold, List.getElem?_append_left (by omega)]
      exact h.joined k
    · rw [List.getElem?_append_right hlast, List.getElem?_append_right (by omega),
        show first + k - system.connections.length = k + 1 - fresh.connections.length by omega,
        List.getElem?_singleton, List.getElem?_singleton, hnew]
      split_ifs <;> rfl
  · simp only [List.length_append, List.length_singleton]
    omega
  · intro j hj hne
    rcases h.left j hj hne with ⟨site', conn, hconn, hstale⟩
    refine ⟨site', conn, ?_, hstale⟩
    rw [List.getElem?_append_left (List.getElem?_eq_some_iff.mp hconn).1]
    exact hconn

/-- A connection that goes on, or that joined, takes the step it takes in the new proxy. -/
theorem Continues.follows {j k : Nat} {input : Input} {site : Site} {conn : Connection}
    {own : List Entry} (h : Continues first i epochs past system fresh)
    (hfresh : fresh.connections[k]? = some (site, conn))
    (hconn : system.connections[j]? = some (site, conn.rebase epochs own))
    (hstep : system.step (.act j input) = some next) :
    ∃ other after, fresh.step (.act k input) = some other ∧
      next.shared = other.shared.rebase epochs ∧
      next.connections = system.connections.set j (site, after.rebase epochs own) ∧
      other.connections = fresh.connections.set k (site, after) := by
  rcases step_act hstep with ⟨site', conn', effect, shared, after', hconn', hlive, rfl⟩
  rw [hconn] at hconn'
  cases hconn'
  rw [h.shared, step_rebase] at hlive
  rcases Option.map_eq_some_iff.mp hlive with ⟨⟨effect', shared', after⟩, htaken, hsame⟩
  cases hsame
  rcases step_of_connection hfresh htaken with ⟨other, hother, hshared, hconnections⟩
  exact ⟨other, after, hother, hshared ▸ rfl, rfl, hconnections⟩

/-- A step after a reset is a step of the new proxy, or one of a connection left behind. -/
theorem Continues.acted {j : Nat} {input : Input}
    (h : Continues first i epochs past system fresh)
    (hstep : system.step (.act j input) = some next) :
    (∃ action other, replayOf first i (.act j input) = some action ∧
      fresh.step action = some other ∧ Continues first i epochs past next other) ∨
    replayOf first i (.act j input) = none ∧ Continues first i epochs past next fresh := by
  have hknown := h.known
  have hsize := h.size
  rcases h.resumed with ⟨site, conn, hfirst, hconn⟩
  have hfirst_lt := (List.getElem?_eq_some_iff.mp hfirst).1
  have hconn_lt := (List.getElem?_eq_some_iff.mp hconn).1
  by_cases hsame : j = i
  · -- the connection that reset
    left
    subst hsame
    rcases h.follows hfirst hconn hstep with ⟨other, after, hother, hshared, hnext, hfresh⟩
    refine ⟨.act 0 input, other, by simp [replayOf], hother, hknown, hshared,
      ⟨site, after, ?_, ?_⟩, fun k => ?_, ?_, fun k hk hne => ?_⟩
    · rw [hfresh, List.getElem?_set_self hfirst_lt]
    · rw [hnext, List.getElem?_set_self hconn_lt]
    · rw [hnext, hfresh, List.getElem?_set_ne (by omega), List.getElem?_set_ne (by omega)]
      exact h.joined k
    · rw [hnext, hfresh, List.length_set, List.length_set]
      exact hsize
    · rw [hnext, List.getElem?_set_ne (Ne.symm hne)]
      exact h.left k hk hne
  · by_cases hleft : j < first
    · -- a connection that was left behind
      right
      refine ⟨by simp [replayOf, hsame, hleft], ?_⟩
      rcases h.left j hleft hsame with ⟨site', conn', hconn', hstale, hquiet⟩
      rcases step_act hstep with ⟨site'', conn'', effect, shared, after, hconn'', hlive, rfl⟩
      rw [hconn'] at hconn''
      cases hconn''
      have hbehind : conn'.epoch < system.shared.resetEpoch := by
        rw [h.shared]
        exact Nat.lt_of_lt_of_le hstale (Nat.le_add_left _ _)
      rcases stale_step hbehind hquiet hlive with ⟨rfl, hepoch, hstill⟩
      refine ⟨hknown, h.shared, ⟨site, conn, hfirst, ?_⟩, fun k => ?_, ?_, fun k hk hne => ?_⟩
      · rw [List.getElem?_set_ne hsame]
        exact hconn
      · rw [List.getElem?_set_ne (by omega)]
        exact h.joined k
      · rw [List.length_set]
        exact hsize
      · by_cases hother : j = k
        · subst hother
          exact ⟨site', after, List.getElem?_set_self (List.getElem?_eq_some_iff.mp hconn').1,
            hepoch ▸ hstale, hstill⟩
        · rw [List.getElem?_set_ne hother]
          exact h.left k hk hne
    · -- a connection that joined after the reset
      left
      rcases Nat.exists_eq_add_of_le (Nat.le_of_not_lt hleft) with ⟨k, rfl⟩
      rcases step_act hstep with ⟨site', conn', -, -, -, hconn', -, -⟩
      have hjoined := h.joined k
      rw [hconn'] at hjoined
      rcases Option.map_eq_some_iff.mp hjoined.symm with ⟨⟨site'', conn''⟩, hlater, hpair⟩
      cases hpair
      rcases h.follows hlater hconn' hstep with ⟨other, after, hother, hshared, hnext, hfresh⟩
      refine ⟨.act (k + 1) input, other, ?_, hother, hknown, hshared, ⟨site, conn, ?_, ?_⟩,
        fun m => ?_, ?_, fun m hm hne => ?_⟩
      · simp [replayOf, hsame, hleft]
      · rw [hfresh, List.getElem?_set_ne (by omega)]
        exact hfirst
      · rw [hnext, List.getElem?_set_ne hsame]
        exact hconn
      · rw [hnext, hfresh]
        by_cases hown : k = m
        · subst hown
          rw [List.getElem?_set_self (List.getElem?_eq_some_iff.mp hconn').1,
            List.getElem?_set_self (List.getElem?_eq_some_iff.mp hlater).1]
          rfl
        · rw [List.getElem?_set_ne (by omega), List.getElem?_set_ne (by omega)]
          exact h.joined m
      · rw [hnext, hfresh, List.length_set, List.length_set]
        exact hsize
      · rw [hnext, List.getElem?_set_ne (by omega)]
        exact h.left m hm hne

/-- A step after a reset is a step of the new proxy, or none of it. -/
theorem Continues.stepped {action : Action} (h : Continues first i epochs past system fresh)
    (hstep : system.step action = some next) :
    (∃ taken other, replayOf first i action = some taken ∧ fresh.step taken = some other ∧
      Continues first i epochs past next other) ∨
    replayOf first i action = none ∧ Continues first i epochs past next fresh := by
  cases action with
  | accept site script =>
      rcases h.accepted hstep with ⟨other, hother, hnext⟩
      exact .inl ⟨_, other, rfl, hother, hnext⟩
  | act j input => exact h.acted hstep

/-! ## Runs -/

/-- What a reset leaves of its connection and of the counters. -/
theorem reset_leaves {input : Input}
    (hstep : system.step (.act i input) = some next)
    (hreset : next.shared.resetEpoch ≠ system.shared.resetEpoch) :
    ∃ site conn, next.connections = system.connections.set i (site, conn) ∧
      i < system.connections.length ∧
      next.shared = { resetEpoch := system.shared.resetEpoch + 1 } ∧
      conn.epoch = system.shared.resetEpoch + 1 ∧
      (conn.phase = .closed ∨ conn.phase = .reading ∧ conn.fingerprints = {}) := by
  rcases step_act hstep with ⟨site, conn, effect, shared, after, hconn, hlive, rfl⟩
  refine ⟨site, after, rfl, (List.getElem?_eq_some_iff.mp hconn).1, ?_⟩
  cases step_cases hlive with
  | refused | accepted | hangup | published | stale | allocated =>
      exact absurd rfl hreset
  | reset hphase =>
      rename_i entry response
      refine ⟨rfl, ?_⟩
      unfold finishReset
      dsimp only
      split
      · exact ⟨rfl, .inr ⟨rfl, rfl⟩⟩
      · exact ⟨rfl, .inl rfl⟩

/-- A connection as it is right after it was accepted, with the settings, the transaction and
the upstream session of another one. -/
def restarted (conn : Connection) : Connection :=
  { conn with epoch := 0, history := [] }

/-- The connection that reset is the one the new proxy begins with. -/
theorem rebase_restarted {conn : Connection}
    (hphase : conn.phase = .closed ∨ conn.phase = .reading) (hepoch : conn.epoch = epochs) :
    (restarted conn).rebase epochs conn.history = conn := by
  rcases conn with ⟨epoch, phase, config, fingerprints, transaction, upstream, script, history⟩
  dsimp only at hphase hepoch
  subst hepoch
  rcases hphase with rfl | rfl
  · simp [restarted, rebase, Phase.rebase]
  · simp [restarted, rebase, Phase.rebase]

/-- Right after a reset, while no other one waits, the proxy is as a new one. -/
theorem continues_reset {input : Input} (h : system.Counted)
    (hstep : system.step (.act i input) = some next)
    (hreset : next.shared.resetEpoch ≠ system.shared.resetEpoch)
    (halone : ∀ j, next.isResetting j = false) :
    ∃ site conn, next.connections[i]? = some (site, conn) ∧
      (conn.phase = .closed ∨ conn.phase = .reading ∧ conn.fingerprints = {}) ∧
      Continues system.connections.length i next.shared.resetEpoch conn.history next
        { connections := [(site, restarted conn)] } := by
  rcases reset_leaves hstep hreset with
    ⟨site, conn, hnext, hknown, hshared, hepoch, hphase⟩
  have hconn : next.connections[i]? = some (site, conn) := by
    rw [hnext, List.getElem?_set_self hknown]
  have hrebase : (restarted conn).rebase next.shared.resetEpoch conn.history = conn := by
    apply rebase_restarted (hphase.imp_right And.left)
    rw [hepoch, hshared]
  refine ⟨site, conn, hconn, hphase, hknown, ?_, ⟨site, restarted conn, rfl, ?_⟩, fun k => ?_, ?_,
    fun j hj hne => ?_⟩
  · rw [hshared]
    simp [Shared.rebase]
  · rw [hrebase]
    exact hconn
  · rw [hnext, List.getElem?_eq_none (by simp)]
    rfl
  · rw [hnext, List.length_set]
    rfl
  · have hold : next.connections[j]? = some system.connections[j] := by
      rw [hnext, List.getElem?_set_ne (Ne.symm hne), List.getElem?_eq_getElem hj]
    rcases hfound : system.connections[j] with ⟨other, found⟩
    rw [hfound] at hold
    have hbefore := h.past j other found (by rw [List.getElem?_eq_getElem hj, hfound])
    refine ⟨other, found, hold, ?_, ?_⟩
    · rw [hshared]
      exact Nat.lt_succ_of_le hbefore
    · have hquiet := halone j
      rwa [isResetting_of_getElem? hold] at hquiet

/-- In every run, after a reset while no other one waits: whatever follows is what follows in a
new proxy that has one connection, with the settings, the transaction and the upstream session
of the one that reset, and empty fingerprints.  The steps of the connections that were there
before are left out.  The counters, the connection and those that join later do the same in both,
but for the number of the epoch; so what a client gets after a reset does not depend on what was
before. -/
theorem reset_restarts (before later : List Action) (i : Nat) (input : Input)
    (system reset after : System) (hbefore : Machine.run step {} before = some system)
    (hreset : system.step (.act i input) = some reset)
    (hepoch : reset.shared.resetEpoch ≠ system.shared.resetEpoch)
    (halone : ∀ j, reset.isResetting j = false)
    (hafter : Machine.run step reset later = some after) :
    ∃ site conn fresh, reset.connections[i]? = some (site, conn) ∧
      (conn.phase = .closed ∨ conn.phase = .reading ∧ conn.fingerprints = {}) ∧
      Machine.run step { connections := [(site, restarted conn)] }
        (later.filterMap (replayOf system.connections.length i)) = some fresh ∧
      after.shared = fresh.shared.rebase reset.shared.resetEpoch ∧
      (∃ other resumed, fresh.connections[0]? = some (other, resumed) ∧
        after.connections[i]? =
          some (other, resumed.rebase reset.shared.resetEpoch conn.history)) ∧
      ∀ k, after.connections[system.connections.length + k]? =
        fresh.connections[k + 1]?.map fun member =>
          (member.1, member.2.rebase reset.shared.resetEpoch []) := by
  rcases continues_reset (counted_run hbefore) hreset hepoch halone with
    ⟨site, conn, hconn, hphase, hstart⟩
  rcases Machine.run_simulation
      (R := Continues system.connections.length i reset.shared.resetEpoch conn.history)
      (replayOf system.connections.length i) (fun hrelated => hrelated.stepped) hstart hafter with
    ⟨fresh, hrun, hcontinues⟩
  exact ⟨site, conn, fresh, hconn, hphase, hrun, hcontinues.shared, hcontinues.resumed,
    hcontinues.joined⟩

/-- A reset beside a client that was there before. -/
theorem reset_restarts_ping :
    ∃ system reset after site conn fresh,
      Machine.run step {} [.accept .acknowledging [], .accept .acknowledging [],
        .act 0 (.inline "DEBUG EVIL MODE RESET" rfl)] =
        some system ∧
      system.step (.act 0 .turn) = some reset ∧
      Machine.run step reset [.act 1 (.inline "GET" rfl),
        .act 0 (.inline "PING" rfl), .act 0 .turn] = some after ∧
      Machine.run step { connections := [(site, restarted conn)] }
        [.act 0 (.inline "PING" rfl), .act 0 .turn] = some fresh ∧
      ∃ other resumed, fresh.connections[0]? = some (other, resumed) ∧
        after.connections[0]? =
          some (other, resumed.rebase reset.shared.resetEpoch conn.history) := by
  have hrun : (Machine.run step {} [.accept .acknowledging [], .accept .acknowledging [],
      .act 0 (.inline "DEBUG EVIL MODE RESET" rfl)]).any
        (fun system => system.shared.resetEpoch = 0 ∧ system.connections.length = 2 ∧
          (system.step (.act 0 .turn)).any fun reset => reset.shared.resetEpoch = 1 ∧
            reset.connections.all (!·.2.isResetting) ∧
            (Machine.run step reset [.act 1 (.inline "GET" rfl),
              .act 0 (.inline "PING" rfl), .act 0 .turn]).isSome) =
      true := by
    decide +kernel
  rcases (Option.any_eq_true _ _).mp hrun with ⟨system, hsystem, hstate⟩
  rw [decide_eq_true_iff] at hstate
  rcases hstate with ⟨hbefore, hlength, hstate⟩
  rcases (Option.any_eq_true _ _).mp hstate with ⟨reset, hreset, hstate⟩
  rw [decide_eq_true_iff] at hstate
  rcases hstate with ⟨hepoch, hquiet, hlater⟩
  rcases Option.isSome_iff_exists.mp hlater with ⟨after, hafter⟩
  have halone (j : Nat) : reset.isResetting j = false := by
    cases hfound : reset.connections[j]? with
    | none => simp [isResetting, hfound]
    | some member =>
        rw [isResetting_of_getElem? hfound]
        simpa using List.all_eq_true.mp hquiet member (List.mem_of_getElem? hfound)
  rcases reset_restarts _ _ 0 .turn system reset after hsystem hreset
    (by rw [hepoch, hbefore]; simp) halone hafter with ⟨site, conn, fresh, -, -, hfresh, -, hresumed, -⟩
  rw [hlength] at hfresh
  exact ⟨system, reset, after, site, conn, fresh, hsystem, hreset, hafter, hfresh, hresumed⟩

end System

end EvilResp
