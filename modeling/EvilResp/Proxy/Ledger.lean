import EvilResp.Proxy.Answers
import EvilResp.Proxy.System

/-!
# The account of a run

Every entry in the history of a connection can be accounted for: an ordinary command was
answered, and the other commands leave no record.

Main results:

- Theorem {lit}`Connection.Ledger.stepped`: a step that adds an entry accounts for it.
- Theorem {lit}`System.every_command_answered`: so every command of every run is answered, by the
  step that added its entry.
-/

namespace EvilResp

open Library
open EvilResp.Resp

namespace Connection

variable {site : Site} {conn : Connection} {entry : Entry}

/-! ## Other commands -/

/-- The entry that was finished, if any, has the record and the index of a given one. -/
def KeepsRecord (conn : Connection) (entry : Entry) (next : Connection) : Prop :=
  next.history = conn.history ∨ ∃ final, next.history = conn.history ++ [final] ∧
    final.record = entry.record ∧ final.index = entry.index

theorem keepsRecord_finish {base : Connection} {final : Entry} (phase : Phase)
    (hhistory : base.history = conn.history) (hrecord : final.record = entry.record)
    (hindex : final.index = entry.index) : KeepsRecord conn entry (base.finish final phase) :=
  .inr ⟨final, congrArg (· ++ [final]) hhistory, hrecord, hindex⟩

theorem keepsRecord_same {next : Connection} (hhistory : next.history = conn.history) :
    KeepsRecord conn entry next :=
  .inl hhistory

theorem keepsRecord_controlReply {base : Connection} {bytes : Bytes}
    (hhistory : base.history = conn.history) :
    KeepsRecord conn entry (base.controlReply entry bytes) := by
  unfold controlReply
  split
  · exact keepsRecord_finish _ hhistory rfl rfl
  · exact keepsRecord_finish _ hhistory rfl rfl

theorem keepsRecord_countedReply {base : Connection} {other : Entry} {bytes : Bytes}
    (hhistory : base.history = conn.history) (hrecord : other.record = entry.record)
    (hindex : other.index = entry.index) :
    KeepsRecord conn entry (base.countedReply other bytes) := by
  unfold countedReply
  dsimp only
  split
  · exact keepsRecord_finish _ hhistory hrecord hindex
  · exact keepsRecord_finish _ hhistory hrecord hindex

theorem keepsRecord_startMonitor {base : Connection} {argv : List String}
    (hhistory : base.history = conn.history) :
    KeepsRecord conn entry (base.startMonitor entry argv) := by
  unfold startMonitor
  split_ifs
  · exact keepsRecord_countedReply hhistory rfl rfl
  · dsimp only
    split
    · exact keepsRecord_same hhistory
    · exact keepsRecord_finish _ hhistory rfl rfl

theorem keepsRecord_publish (text : String) :
    KeepsRecord conn entry (conn.publish entry text) := by
  unfold publish
  dsimp only
  split
  · exact keepsRecord_same rfl
  · exact keepsRecord_finish _ rfl rfl rfl

theorem keepsRecord_finishReset (epoch : Nat) (response : Bytes) :
    KeepsRecord conn entry (conn.finishReset epoch entry response) := by
  unfold finishReset
  dsimp only
  split
  · exact keepsRecord_finish _ rfl rfl rfl
  · exact keepsRecord_finish _ rfl rfl rfl

theorem keepsRecord_discover {base : Connection} {argv : List String}
    (hhistory : base.history = conn.history) :
    KeepsRecord conn entry (base.discover site entry argv) := by
  unfold discover
  dsimp only
  split
  · exact keepsRecord_countedReply hhistory rfl rfl
  · split
    · exact keepsRecord_finish _ hhistory rfl rfl
    · exact keepsRecord_countedReply hhistory rfl rfl

/-- Commands that are handled at once leave no record. -/
theorem keepsRecord_handle (site : Site) (conn : Connection) (entry : Entry) (frame : Frame) :
    KeepsRecord conn entry (conn.handle site entry frame).2 := by
  unfold handle
  dsimp only
  split_ifs
  · exact keepsRecord_controlReply rfl
  · exact keepsRecord_controlReply rfl
  · exact keepsRecord_startMonitor rfl
  · unfold debugEvil
    dsimp only
    split_ifs
    · exact keepsRecord_same rfl
    · exact keepsRecord_countedReply rfl rfl rfl
  · unfold dispatch
    split
    · exact keepsRecord_same rfl
    · split_ifs
      · exact keepsRecord_countedReply rfl rfl rfl
      · exact keepsRecord_discover rfl
      · exact keepsRecord_same rfl

/-! ## Steps -/

/-- What a step accounts for when it adds an entry: only ordinary commands are on record, and the
step answers them. -/
structure Account (site : Site) (conn : Connection) (entry : Entry) (next : Connection) :
    Prop where
  unrecorded : entry.index = none → entry.record = none
  answered : ∀ epoch index, entry.index = some (epoch, index) →
    ∃ frame, parseFrame entry.request = .ok frame ∧ entry.config = conn.config ∧
      Answered site conn entry (ordinaryCommand site conn.config index entry.request frame) next

/-- A connection is ready to account for its next entry. -/
structure Ledger (site : Site) (conn : Connection) : Prop where
  settings : conn.config.transport.Reached
  pending : ∀ entry ∈ conn.pending, entry.record = none ∧ entry.index = none
  waits : ∀ entry command, conn.phase = .allocating entry command → Waiting conn entry

/-- A step accounts for the entry that it adds. -/
structure Accounts (site : Site) (conn next : Connection) : Prop where
  ledger : Ledger site next
  account : ∀ final, next.history = conn.history ++ [final] → Account site conn final next

theorem ledger_new (site : Site) (shared : Shared) (script : List WriteEvent) :
    Ledger site (Connection.new site shared script) where
  settings := .default
  pending := by simp [pending, Connection.new]
  waits := by simp [Connection.new]

variable {next : Connection}

/-- A step that leaves no record accounts for its entry. -/
theorem KeepsRecord.accounts (hkeeps : KeepsRecord conn entry next)
    (hrecord : entry.record = none) (hindex : entry.index = none) (hnext : Ledger site next) :
    Accounts site conn next := by
  refine ⟨hnext, fun final hadded => ?_⟩
  rcases hkeeps with hsame | ⟨other, hother, hsame, hfree⟩
  · rw [hsame] at hadded
    simp at hadded
  · obtain rfl : other = final := by simpa using hother.symm.trans hadded
    refine ⟨fun _ => hsame.trans hrecord, fun epoch index hgiven => ?_⟩
    rw [hfree, hindex] at hgiven
    cases hgiven

theorem Finished.ledger {counted : Bool} {base : Connection} {final : Entry}
    (hfinal : Finished counted base entry next final)
    (hsettings : base.config.transport.Reached) : Ledger site next where
  settings := hfinal.config ▸ hsettings
  pending := by simp [hfinal.pending]
  waits := by
    intro other command hphase
    rcases hfinal.phase with hnext | hnext <;> simp [hnext] at hphase

/-- What is done for a frame keeps the account. -/
theorem Ledger.handled {bytes : Bytes} {frame : Frame} {effect : Effect} (h : Ledger site conn)
    (hhandles : Handles site conn { request := bytes, config := conn.config } frame effect next) :
    Ledger site next := by
  cases hhandles with
  | protocol _ hfinal => exact hfinal.ledger h.settings
  | chaos _ _ hfinal =>
      exact hfinal.ledger (EvilConfig.reached_applyDebugChaos _ _ h.settings)
  | monitor _ _ _ hfinal => exact hfinal.ledger h.settings
  | monitoring => exact ⟨h.settings, by simp [Connection.pending], by simp⟩
  | resetting =>
      exact ⟨EvilConfig.reached_applyDebugEvil _ _ h.settings, by simp [Connection.pending],
        by simp⟩
  | evil _ _ _ _ _ hfinal =>
      exact hfinal.ledger (EvilConfig.reached_applyDebugEvil _ _ h.settings)
  | slots _ _ _ _ _ hfinal => exact hfinal.ledger h.settings
  | discovery _ _ _ hfinal => exact hfinal.ledger h.settings
  | undiscovered _ _ _ hfinal => exact hfinal.ledger h.settings
  | waits =>
      refine ⟨h.settings, by simp [Connection.pending], ?_⟩
      rintro other command ⟨⟩
      exact ⟨rfl, rfl, rfl, rfl, rfl⟩

theorem Ledger.closed (h : Ledger site conn) :
    Accounts site conn { conn with phase := .closed } where
  ledger := ⟨h.settings, by simp [Connection.pending], by simp⟩
  account := by simp

/-- The frame that is accepted leaves no record yet. -/
theorem Ledger.accepted (h : Ledger site conn) (shared : Shared) (bytes : Bytes) :
    Accounts site conn (conn.accept site shared bytes).2 := by
  unfold accept
  cases hparse : parseFrame bytes with
  | error error => exact h.closed
  | ok frame =>
      dsimp only
      split_ifs with hepoch
      · exact h.closed
      · have hkeeps :=
          keepsRecord_handle site conn { request := bytes, config := conn.config } frame
        exact hkeeps.accounts rfl rfl (h.handled (handles ⟨rfl, rfl⟩))

/-- The command that got its index is answered. -/
theorem Ledger.answered {index : Nat} {frame : Frame} (h : Ledger site conn)
    (hphase : conn.phase = .allocating entry frame) (hfresh : entry.Fresh)
    (hparse : parseFrame entry.request = .ok frame) :
    Accounts site conn (conn.ordinary site { entry with index := some (conn.epoch, index) }
      (ordinaryCommand site conn.config index entry.request frame)) := by
  have hwaits := h.waits entry frame hphase
  have hwaiting : Waiting conn { entry with index := some (conn.epoch, index) } :=
    ⟨hwaits.config, hwaits.upstreamReply, hwaits.execCommands, hwaits.accepted, hwaits.record⟩
  have hresponds : Responds site conn { entry with index := some (conn.epoch, index) }
      (ordinaryCommand site conn.config index entry.request frame) _ :=
    responds ⟨hfresh.accepted, hfresh.terminal⟩
  rcases answered_ordinary h.settings hwaiting with ⟨other, hhistory, hsame, hanswered⟩
  constructor
  · cases hresponds with
    | skipped hfinal => exact hfinal.ledger h.settings
    | forwarded _ _ hfinal | unavailable _ _ hfinal => exact hfinal.ledger h.settings
  · intro final hadded
    obtain rfl : other = final := by simpa using hhistory.symm.trans hadded
    refine ⟨fun hfree => ?_, fun epoch given hgiven => ?_⟩
    · rw [hsame.index] at hfree
      cases hfree
    · rw [hsame.index] at hgiven
      cases hgiven
      refine ⟨frame, ?_, hsame.config.trans hwaits.config, ?_⟩
      · rw [hsame.request]
        exact hparse
      · rw [hsame.request]
        exact hanswered

/-- A step that adds an entry accounts for it. -/
theorem Ledger.stepped {given : List (Nat × Nat)} {shared shared' : Shared} {input : Input}
    {effect : Effect} (h : Ledger site conn) (hindexed : Indexed site given conn)
    (hstep : conn.step site shared input = some (effect, shared', next)) :
    Accounts site conn next := by
  have hpending := h.pending
  cases input with
  | frame bytes complete =>
      rcases accept_of_step hstep with ⟨-, haccept⟩
      have haccounts := h.accepted shared bytes
      rwa [haccept] at haccounts
  | hangup =>
      cases hphase : conn.phase with
      | reading =>
          simp only [step, hphase] at hstep
          cases hstep
          exact h.closed
      | resetting _ _ => simp [step, hphase] at hstep
      | allocating _ _ => simp [step, hphase] at hstep
      | monitoring _ => simp [step, hphase] at hstep
      | closed => simp [step, hphase] at hstep
  | line text =>
      cases hphase : conn.phase with
      | monitoring entry =>
          simp only [Connection.pending, hphase, List.mem_singleton, forall_eq] at hpending
          simp only [step, hphase] at hstep
          cases hstep
          apply (keepsRecord_publish text).accounts hpending.1 hpending.2
          rcases publish_cases conn entry text with ⟨script, accepted, hnext⟩ |
            ⟨fingerprints, final, hfinal, -⟩
          · rw [hnext]
            exact ⟨h.settings, by simpa [Connection.pending] using hpending, by simp⟩
          · exact hfinal.ledger h.settings
      | reading => simp [step, hphase] at hstep
      | resetting _ _ => simp [step, hphase] at hstep
      | allocating _ _ => simp [step, hphase] at hstep
      | closed => simp [step, hphase] at hstep
  | turn =>
      cases hphase : conn.phase with
      | resetting entry response =>
          simp only [Connection.pending, hphase, List.mem_singleton, forall_eq] at hpending
          rcases hindexed.own entry (.inl ⟨response, hphase⟩) with ⟨-, hterminal, -⟩
          simp only [step, hphase] at hstep
          cases hstep
          rcases finished_finishReset conn (shared.resetEpoch + 1) hterminal response with
            ⟨fingerprints, final, hfinal, -⟩
          exact (keepsRecord_finishReset (shared.resetEpoch + 1) response).accounts hpending.1
            hpending.2 (hfinal.ledger h.settings)
      | allocating entry frame =>
          rcases hindexed.waits entry frame hphase with ⟨hfresh, -, -, hparse, -⟩
          simp only [Connection.pending, hphase, List.mem_singleton, forall_eq] at hpending
          cases hallocate : shared.allocate conn.epoch with
          | none =>
              simp only [step, hphase, hallocate] at hstep
              cases hstep
              have hkeeps : KeepsRecord conn entry (conn.finish entry .closed) :=
                keepsRecord_finish _ rfl rfl rfl
              exact hkeeps.accounts hpending.1 hpending.2
                ((finished_closed conn hfresh).ledger h.settings)
          | some given =>
              simp only [step, hphase, hallocate] at hstep
              cases hstep
              exact h.answered hphase hfresh hparse
      | reading => simp [step, hphase] at hstep
      | monitoring _ => simp [step, hphase] at hstep
      | closed => simp [step, hphase] at hstep

end Connection

namespace System

open Connection

/-- Every connection is ready to account for its next entry. -/
theorem kept_ledger : Kept Ledger where
  begins := ledger_new
  keeps := fun hindexed hledger hstep => (hledger.stepped hindexed hstep).ledger

/-- In every run, an entry is accounted for by the step that added it. -/
theorem entry_accounted {actions : List Action} {system : System}
    (h : Machine.run step {} actions = some system) {i : Nat} {site : Site} {conn : Connection}
    (hconn : system.connections[i]? = some (site, conn)) {past later : List Entry} {entry : Entry}
    (hsplit : conn.history = past ++ entry :: later) :
    ∃ before after, Adds actions i site before entry after ∧ before.history = past ∧
      Account site before entry after := by
  rcases entry_added h hconn hsplit with ⟨before, after, hadds, hpast⟩
  rcases hadds.step with ⟨given, shared, input, effect, shared', hindexed, hlive⟩
  have hledger := kept_ledger.before_adds hadds
  exact ⟨before, after, hadds, hpast,
    (hledger.stepped hindexed hlive).account entry hadds.history⟩

end System

end EvilResp
