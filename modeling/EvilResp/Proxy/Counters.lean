import EvilResp.Proxy.Receipts
import EvilResp.Proxy.Service

/-!
# Counters of a run

The connections count side by side into shared counters.  Nothing is lost between them: what
was counted is the sum over the accepted frames, in whatever order the connections took their
steps.

Main results:

- Theorem {lit}`Connection.stepped_tally`: a step counts what it adds to the accepted frames.
- Theorem {lit}`Service.counters_exact`: so after every run the counters tell exactly what the
  connections did.
-/

namespace EvilResp

open Library
open EvilResp.Resp

/-- Replacing one summand. -/
theorem sum_map_set {α M : Type*} [AddCommMonoid M] {l : List α} {i : Nat} {a b : α} {c : M}
    (f : α → M) (h : l[i]? = some a) (hb : f b = f a + c) :
    ((l.set i b).map f).sum = (l.map f).sum + c := by
  induction l generalizing i with
  | nil => cases h
  | cons x l ih =>
      cases i with
      | zero =>
          cases h
          simp [hb, add_right_comm]
      | succ i =>
          have hrest := ih (i := i) (by simpa using h)
          rw [List.set_cons_succ, List.map_cons, List.sum_cons, hrest, List.map_cons, List.sum_cons,
            add_assoc]

/-- A client that leaves was there. -/
theorem Stats.clientDropped_add (stats : Stats) (total active : Nat) :
    (stats + { clientsTotal := total, clientsActive := active + 1 }).clientDropped =
      stats + { clientsTotal := total, clientsActive := active } := by
  ext <;> simp [add_def, clientDropped]

namespace Connection

variable {site : Site} {shared shared' : Shared} {conn next : Connection} {input : Input}
  {effect : Effect} {given : List (Nat × Nat)}

/-! ## What a connection counted -/

/-- What is counted for an accepted frame, under the settings that it found. -/
def tallyOf (site : Site) (receipt : Receipt) : Stats :=
  match parseFrame receipt.request with
  | .error _ => 0
  | .ok command =>
      if isDebugChaos command.argvLossy then
        Stats.countDebugChaos site.lib receipt.config command.argvLossy
      else if isDebugEvil command.argvLossy then
        Stats.countDebugEvil site.lib receipt.config command.argvLossy site.resetSupported
      else 0

/-- What was counted for all frames that were accepted. -/
def tally (site : Site) (conn : Connection) : Stats :=
  (conn.receipts.map (tallyOf site)).sum

/-- Handling a frame counts what its command is counted for. -/
theorem Handles.counted {bytes : Bytes} {command : Frame} {index : Option (Nat × Nat)}
    (hparse : parseFrame bytes = .ok command)
    (h : Handles site conn { request := bytes, config := conn.config } command effect next) :
    effect.counted = tallyOf site { request := bytes, config := conn.config, index } := by
  have hquiet : isDebugChaos command.argvLossy = false → isDebugEvil command.argvLossy = false →
      tallyOf site { request := bytes, config := conn.config, index } = 0 := by
    intro hchaos hevil
    simp [tallyOf, hparse, hchaos, hevil]
  cases h with
  | protocol hprotocol _ =>
      exact (hquiet (isDebug_unique hprotocol (by decide))
        (isDebug_unique hprotocol (by decide))).symm
  | chaos _ hchaos _ => simp [tallyOf, hparse, hchaos]
  | monitor _ hchaos hmonitor _ | monitoring _ hchaos hmonitor =>
      exact (hquiet hchaos (not_isDebug_of_isMonitor hmonitor)).symm
  | resetting _ hchaos _ hevil _ | evil _ hchaos _ hevil _ _ =>
      simp [tallyOf, hparse, hchaos, hevil]
  | slots _ hchaos _ hevil _ _ => exact (hquiet hchaos hevil).symm
  | discovery hlocal _ _ _ | undiscovered hlocal _ _ _ | waits hlocal _ =>
      simp only [IsLocal, not_or, Bool.not_eq_true] at hlocal
      exact (hquiet hlocal.2.1 hlocal.2.2.2.1).symm

/-- A step counts what it adds to the accepted frames. -/
theorem stepped_tally (h : Indexed site given conn)
    (hstep : conn.step site shared input = some (effect, shared', next)) :
    next.tally site = conn.tally site + effect.counted := by
  cases stepped_receives h hstep with
  | kept _ hcounted hreceipts _ => rw [tally, hreceipts, hcounted, add_zero, tally]
  | accepted hparse hhandles hreceipts =>
      rw [tally, hreceipts, List.map_append, List.sum_append, List.map_singleton,
        List.sum_singleton, hhandles.counted hparse, tally]
  | allocated _ _ _ _ _ hcounted hbefore hafter _ =>
      -- The index makes no difference to what is counted.
      rw [tally, tally, hbefore, hafter, hcounted, add_zero, List.map_append, List.map_append]
      rfl

/-! ## Resets -/

/-- A command is counted as a reset exactly when its connection then waits to reset. -/
theorem Handles.evilResets {entry : Entry} {command : Frame}
    (h : Handles site conn entry command effect next) :
    effect.counted.evilResets = if next.isResetting then 1 else 0 := by
  cases h with
  | protocol _ hfinal | monitor _ _ _ hfinal | slots _ _ _ _ _ hfinal =>
      rw [hfinal.not_resetting]
      rfl
  | chaos _ _ hfinal =>
      rw [hfinal.not_resetting]
      exact Stats.evilResets_countDebugChaos site.lib conn.config command.argvLossy
  | monitoring => rfl
  | resetting _ _ _ _ hreset => simp [isResetting, Stats.evilResets_countDebugEvil, hreset]
  | evil _ _ _ _ hreset hfinal =>
      simp [hfinal.not_resetting, Stats.evilResets_countDebugEvil, hreset]
  | discovery _ _ _ hfinal | undiscovered _ _ _ hfinal =>
      rw [hfinal.not_resetting]
      rfl
  | waits => rfl

/-- A step that counts no reset leaves no connection waiting for one. -/
theorem stepped_evilResets (h : Indexed site given conn)
    (hstep : conn.step site shared input = some (effect, shared', next)) :
    effect.counted.evilResets = if next.isResetting then 1 else 0 := by
  cases step_cases hstep with
  | refused | hangup => rfl
  | accepted _ _ _ hhandles => exact hhandles.evilResets
  | published hphase =>
      rename_i entry text
      rcases publish_cases conn entry text with ⟨script, accepted, hnext⟩ |
        ⟨fingerprints, final, hfinal, -⟩
      · rw [hnext]
        rfl
      · rw [hfinal.not_resetting]
        rfl
  | reset hphase =>
      rename_i entry response
      rcases h.own entry (.inl ⟨response, hphase⟩) with ⟨-, hterminal, -⟩
      rcases finished_finishReset conn (shared.resetEpoch + 1) hterminal response with
        ⟨fingerprints, final, hfinal, -⟩
      rw [hfinal.not_resetting]
      rfl
  | stale => rfl
  | allocated hphase _ hresponds =>
      rw [(hresponds (h.waits _ _ hphase).1).not_resetting]
      rfl

/-- The epoch grows exactly when a connection that waits for it takes its step. -/
theorem resetEpoch_of_step (h : conn.step site shared input = some (effect, shared', next)) :
    shared'.resetEpoch = shared.resetEpoch + if conn.isResetting then 1 else 0 := by
  cases step_cases h with
  | refused hphase | accepted hphase _ _ _ | hangup hphase | published hphase | stale hphase _
  | allocated hphase _ _ => simp [isResetting, hphase]
  | reset hphase => simp [isResetting, hphase, resetIncrementingState]

/-- A connection that takes a step was open. -/
theorem open_of_step (h : conn.step site shared input = some (effect, shared', next)) :
    conn.isClosed = false := by
  unfold isClosed
  split
  · rename_i hphase
    have hnone := @live_closed site conn hphase (shared, input)
    simp [live, h] at hnone
  · rfl

end Connection

namespace System

open Connection

/-- What the connections counted. -/
def tally (system : System) : Stats :=
  (system.connections.map fun member => member.2.tally member.1).sum

/-- The clients that came, and those that are still there. -/
def clients (system : System) : Stats :=
  { clientsTotal := system.connections.length
    clientsActive := system.connections.countP (!·.2.isClosed) }

/-- The counters are in line with the connections. -/
structure Tallied (system : System) (stats : Stats) : Prop where
  indexes : system.Counted
  sums : stats = system.tally + system.clients
  resets : stats.evilResets =
    system.shared.resetEpoch + system.connections.countP (·.2.isResetting)

theorem tallied_empty : Tallied {} {} where
  indexes := counted_empty
  sums := rfl
  resets := rfl

variable {system next : System} {stats : Stats}

theorem Tallied.accepted {site : Site} {script : List WriteEvent} (h : system.Tallied stats)
    (hstep : system.step (.accept site script) = some next) :
    next.Tallied (stats + Stats.clientConnected) := by
  have hnext := counted_step h.indexes hstep
  cases hstep
  refine ⟨hnext, ?_, ?_⟩
  · have hnew : (Connection.new site system.shared script).tally site = 0 := rfl
    rw [h.sums, tally, tally, clients, clients, List.map_append, List.sum_append,
      List.map_singleton, List.sum_singleton, hnew, add_zero]
    ext <;> simp [Stats.add_def, Stats.clientConnected, isClosed, Connection.new, add_assoc]
  · rw [List.countP_append]
    exact h.resets

/-- The step of one connection adds what it counts. -/
theorem Tallied.acted {i : Nat} {input : Input} {site : Site} {conn after : Connection}
    {effect : Effect} {shared : Shared} (h : system.Tallied stats)
    (hstep : system.step (.act i input) = some next)
    (hconn : system.connections[i]? = some (site, conn))
    (hafter : next.connections[i]? = some (site, after))
    (hlive : conn.step site system.shared input = some (effect, shared, after)) :
    next.Tallied (if after.isClosed then (stats + effect.counted).clientDropped
      else stats + effect.counted) := by
  have hnext := counted_step h.indexes hstep
  rcases connections_act hstep hconn hafter with ⟨effect', shared', hlive', hshared, hconnections⟩
  obtain ⟨rfl, rfl⟩ : effect' = effect ∧ shared' = shared := by simpa [hlive] using hlive'.symm
  have hindexed := h.indexes.indexed i site conn hconn
  have hsum := sum_map_set (b := (site, after))
    (fun member : Site × Connection => member.2.tally member.1) hconn
    (stepped_tally hindexed hlive)
  have hopen := countP_set_add (b := (site, after))
    (fun member : Site × Connection => !member.2.isClosed) hconn
  have hwaiting := countP_set_add (b := (site, after))
    (fun member : Site × Connection => member.2.isResetting) hconn
  have hresets := stepped_evilResets hindexed hlive
  have hepoch := resetEpoch_of_step hlive
  simp only [open_of_step hlive, Bool.not_false, if_true] at hopen
  refine ⟨hnext, ?_, ?_⟩
  · rw [h.sums, tally, tally, clients, clients, hconnections, hsum, List.length_set,
      add_right_comm]
    by_cases hclosed : after.isClosed = true
    · simp only [hclosed, Bool.not_true, Bool.false_eq_true, if_false, add_zero] at hopen
      rw [if_pos hclosed, ← hopen, Stats.clientDropped_add]
    · simp only [hclosed, Bool.not_false, if_true] at hopen
      rw [if_neg hclosed, ← Nat.add_right_cancel hopen]
  · have hsame : (if after.isClosed = true then (stats + effect'.counted).clientDropped
        else stats + effect'.counted).evilResets =
          stats.evilResets + effect'.counted.evilResets := by
      split <;> rfl
    rw [hsame, hresets, h.resets, hconnections, hshared, hepoch]
    dsimp only at hwaiting ⊢
    omega

end System

namespace Service

open Connection

variable {channel : Channel String} {codec : Codec SerializedRecord}
  {service next : Service channel}

/-- A step of one connection keeps the counters in line with what was accepted. -/
theorem Acted.tallied {i : Nat} {input : Input} {now : Duration} {socket : Socket} {site : Site}
    {conn after : Connection} {effect : Effect}
    (hacted : Acted codec service next i input now socket site conn after effect)
    (h : service.system.Tallied service.stats) : next.system.Tallied next.stats := by
  rcases hacted.taken with ⟨shared, hlive⟩
  rw [hacted.stats]
  exact h.acted hacted.system hacted.found hacted.reached hlive

/-- One step keeps the counters in line with what was accepted. -/
theorem tallied_step {action : Action} (h : service.system.Tallied service.stats)
    (hstep : service.step codec action = some next) : next.system.Tallied next.stats := by
  cases action with
  | accept site script =>
      rcases step_accepted hstep with ⟨hsystem, hnext⟩
      rw [hnext]
      exact h.accepted hsystem
  | act i input now socket =>
      rcases step_acted hstep with ⟨-, site, conn, after, effect, hacted⟩
      exact hacted.tallied h
  | receive i =>
      rcases step_received hstep with ⟨told, monitor, -, hcases⟩
      rcases hcases with ⟨skipped, -, rfl⟩ | ⟨line, site, conn, after, effect, -, hacted⟩
      · exact h
      · exact hacted.tallied h

/-- After every run of the service, whatever the order of the steps: the counters are the sum
of what each connection counted, for each frame it accepted under the settings it had then;
the total and the active clients are those that came and those that did not end; and the
number of resets is the number of those that were carried out and of those that wait. -/
theorem counters_exact (channel : Channel String) (codec : Codec SerializedRecord)
    (reproFile : Option Bytes) (actions : List Action) (service : Service channel)
    (h : Machine.run (step codec) { reproFile } actions = some service) :
    service.stats =
      (service.system.connections.map fun member => member.2.tally member.1).sum +
        { clientsTotal := service.system.connections.length
          clientsActive := service.system.connections.countP (!·.2.isClosed) } ∧
      service.stats.evilResets = service.system.shared.resetEpoch +
        service.system.connections.countP (·.2.isResetting) := by
  have htallied : service.system.Tallied service.stats :=
    Machine.run_invariant
      (I := fun _ (service : Service channel) => service.system.Tallied service.stats)
      tallied_step System.tallied_empty h
  exact ⟨htallied.sums, htallied.resets⟩

/-- A reset that waits, beside a connection that ended. -/
theorem counters_exact_waiting :
    ∃ service : Service (Broadcast.asChannel String),
      Machine.run (step jsonCodec) { reproFile := none }
        [.accept .acknowledging [], .accept .acknowledging [],
          .act 0 (.inline "DEBUG EVIL MODE RESET" rfl) ⟨0, 0⟩ {},
          .act 1 .hangup ⟨0, 0⟩ {}] = some service ∧
      service.stats.evilResets = service.system.shared.resetEpoch +
        service.system.connections.countP (·.2.isResetting) := by
  rcases Option.isSome_iff_exists.mp (show (Machine.run
      (@step (Broadcast.asChannel String) jsonCodec) { reproFile := none }
      [.accept .acknowledging [], .accept .acknowledging [],
        .act 0 (.inline "DEBUG EVIL MODE RESET" rfl) ⟨0, 0⟩ {},
        .act 1 .hangup ⟨0, 0⟩ {}]).isSome by decide +kernel) with ⟨service, hrun⟩
  exact ⟨service, hrun, (counters_exact _ _ none _ service hrun).2⟩

end Service

end EvilResp
