import EvilResp.Proxy.System

/-!
# Resets

A reset makes the connections accepted before it stale: their next command closes them.
The allocation of an index checks this again after it waited for the barrier.  The reset
does not, so that two connections that both passed the check may reset one after the
other, the second one although the first made it stale.

Main results:

- Theorem {lit}`System.timely_step`: where no two resets wait together, each is taken by
  a connection that is not stale.
- Theorem {lit}`System.reset_invalidates`: then no stale connection acts on the counters.
- Theorem {lit}`System.reset_not_guarded`: a stale connection that waits for the barrier
  resets.
-/

namespace EvilResp

open Library
open EvilResp.Resp

open Connection

namespace System

/-! ## Rivals -/

/-- A connection waits to reset. -/
def isResetting (system : System) (i : Nat) : Bool :=
  system.connections[i]?.any (·.2.isResetting)

/-- A reset is taken only while no other connection waits for its own. -/
def Unrivalled (system : System) : Action → Prop
  | .act i .turn =>
      system.isResetting i = true →
        ∀ j < system.connections.length, j ≠ i → system.isResetting j = false
  | _ => True

instance (system : System) (action : Action) : Decidable (system.Unrivalled action) :=
  match action with
  | .act i .turn =>
      inferInstanceAs (Decidable (system.isResetting i = true →
        ∀ j < system.connections.length, j ≠ i → system.isResetting j = false))
  | .act _ (.frame _ _) => isTrue trivial
  | .act _ .hangup => isTrue trivial
  | .act _ (.line _) => isTrue trivial
  | .accept _ _ => isTrue trivial

/-- No connection that waits to reset is behind the shared epoch. -/
structure Timely (system : System) : Prop where
  counted : system.Counted
  resetting : ∀ (i : Nat) (site : Site) (conn : Connection),
    system.connections[i]? = some (site, conn) → conn.isResetting = true →
      conn.epoch = system.shared.resetEpoch

theorem timely_empty : Timely {} where
  counted := counted_empty
  resetting := by simp

variable {system next : System}

theorem isResetting_of_getElem? {i : Nat} {site : Site} {conn : Connection}
    (h : system.connections[i]? = some (site, conn)) :
    system.isResetting i = conn.isResetting := by
  simp [isResetting, h]

/-- Where no two resets wait together, one step keeps the connections timely. -/
theorem timely_step {action : Action} (h : system.Timely) (hunrivalled : system.Unrivalled action)
    (hstep : system.step action = some next) : next.Timely := by
  have hcounted := counted_step h.counted hstep
  refine ⟨hcounted, ?_⟩
  cases action with
  | accept site script =>
      intro j other found hfound hwaits
      rcases getElem?_accept_cases hstep hfound with hold | ⟨-, -, rfl⟩
      · cases hstep
        exact h.resetting j other found hold hwaits
      · cases hwaits
  | act i input =>
      rcases step_act hstep with ⟨site, conn, effect, shared, conn', hconn, hlive, rfl⟩
      intro j other found hfound hwaits
      show found.epoch = shared.resetEpoch
      rcases (h.counted.indexed i site conn hconn).step_epoch hlive with
        ⟨hepoch, -, rfl, hreset⟩ | ⟨hepoch, hsame, hresetting⟩
      · rcases getElem?_set_cases hconn hfound with ⟨rfl, rfl, rfl⟩ | ⟨hne, hkept⟩
        · exact hepoch
        · -- No other connection waited when this reset was taken.
          rw [← isResetting_of_getElem? hconn] at hreset
          have halone := hunrivalled hreset j (List.getElem?_eq_some_iff.mp hkept).1 hne
          rw [isResetting_of_getElem? hkept, hwaits] at halone
          cases halone
      · rw [hsame]
        rcases getElem?_set_cases hconn hfound with ⟨rfl, rfl, rfl⟩ | ⟨-, hkept⟩
        · rw [hepoch]
          exact hresetting hwaits
        · exact h.resetting j other found hkept hwaits

/-- A change of the counters is made by a connection that stored the current epoch. -/
theorem Timely.guarded {action : Action} (h : system.Timely)
    (hstep : system.step action = some next) (hchanged : next.shared ≠ system.shared) :
    ∃ i input site conn, action = .act i input ∧
      system.connections[i]? = some (site, conn) ∧ conn.epoch = system.shared.resetEpoch := by
  cases action with
  | accept site script =>
      cases hstep
      exact absurd rfl hchanged
  | act i input =>
      rcases step_act hstep with ⟨site, conn, effect, shared, conn', hconn, hlive, rfl⟩
      refine ⟨i, input, site, conn, rfl, hconn, ?_⟩
      rcases step_shared hlive with ⟨-, rfl⟩ | ⟨-, hepoch, -⟩ | ⟨-, -, -, entry, response, hphase⟩
      · exact absurd rfl hchanged
      · exact hepoch
      · exact h.resetting i site conn hconn (by simp [Connection.isResetting, hphase])

/-! ## Stale connections -/

/-- A reset made the connection stale. -/
def IsStale (system : System) (i : Nat) : Prop :=
  ∃ site conn, system.connections[i]? = some (site, conn) ∧ conn.epoch < system.shared.resetEpoch

/-- The shared epoch never goes back. -/
theorem resetEpoch_mono {action : Action} (hstep : system.step action = some next) :
    system.shared.resetEpoch ≤ next.shared.resetEpoch := by
  cases action with
  | accept site script =>
      cases hstep
      exact Nat.le_refl _
  | act i input =>
      rcases step_act hstep with ⟨site, conn, effect, shared, conn', hconn, hlive, rfl⟩
      rcases step_shared hlive with ⟨-, rfl⟩ | ⟨-, -, rfl⟩ | ⟨-, rfl, -⟩
      · exact Nat.le_refl _
      · exact Nat.le_refl _
      · exact Nat.le_succ _

/-- A stale connection changes no counter. -/
theorem IsStale.idle {i : Nat} {input : Input} (hstale : system.IsStale i) (h : system.Timely)
    (hstep : system.step (.act i input) = some next) : next.shared = system.shared := by
  by_contra hchanged
  rcases h.guarded hstep hchanged with ⟨j, other, site, conn, haction, hconn, hepoch⟩
  cases haction
  rcases hstale with ⟨site', conn', hconn', hbehind⟩
  rw [hconn] at hconn'
  cases hconn'
  omega

/-- A stale connection stays stale. -/
theorem IsStale.kept {i : Nat} {action : Action} (hstale : system.IsStale i) (h : system.Timely)
    (hstep : system.step action = some next) : next.IsStale i := by
  have hmono := resetEpoch_mono hstep
  rcases hstale with ⟨site, conn, hconn, hbehind⟩
  cases action with
  | accept site' script =>
      cases hstep
      refine ⟨site, conn, ?_, hbehind⟩
      rw [List.getElem?_append_left (List.getElem?_eq_some_iff.mp hconn).1]
      exact hconn
  | act j input =>
      by_cases hsame : j = i
      · subst hsame
        have hidle := IsStale.idle ⟨site, conn, hconn, hbehind⟩ h hstep
        rcases step_act hstep with ⟨site', conn', effect, shared, after, hconn', hlive, rfl⟩
        rw [hconn] at hconn'
        cases hconn'
        refine ⟨site, after, List.getElem?_set_self (List.getElem?_eq_some_iff.mp hconn).1, ?_⟩
        rcases (h.counted.indexed j site conn hconn).step_epoch hlive with
          ⟨-, hnext, -⟩ | ⟨hepoch, hshared, -⟩
        · have hshared : shared.resetEpoch = system.shared.resetEpoch := congrArg _ hidle
          omega
        · show after.epoch < shared.resetEpoch
          omega
      · rcases step_act hstep with ⟨site', conn', effect, shared, after, hconn', hlive, rfl⟩
        refine ⟨site, conn, ?_, Nat.lt_of_lt_of_le hbehind hmono⟩
        rw [List.getElem?_set_ne hsame]
        exact hconn

/-- A reset makes every other connection stale. -/
theorem Timely.isStale {i j : Nat} (h : system.Timely)
    (hstep : system.step (.act i .turn) = some next)
    (hreset : next.shared.resetEpoch ≠ system.shared.resetEpoch)
    (hknown : j < system.connections.length) (hother : j ≠ i) : next.IsStale j := by
  have hmono := resetEpoch_mono hstep
  rcases step_act hstep with ⟨site, conn, effect, shared, conn', hconn, hlive, rfl⟩
  rcases hfound : system.connections[j] with ⟨other, found⟩
  have hfound' : system.connections[j]? = some (other, found) := by
    rw [List.getElem?_eq_getElem hknown, hfound]
  refine ⟨other, found, ?_, ?_⟩
  · rw [List.getElem?_set_ne (Ne.symm hother)]
    exact hfound'
  · have hpast := h.counted.past j other found hfound'
    exact Nat.lt_of_le_of_lt hpast (Nat.lt_of_le_of_ne hmono (Ne.symm hreset))

/-! ## Runs -/

/-- Every step of a run that changes the counters is made by a connection that stored the
current epoch immediately before. -/
def Guarded (actions : List Action) : Prop :=
  ∀ past action later system next, actions = past ++ action :: later →
    Machine.run step {} past = some system → system.step action = some next →
    next.shared ≠ system.shared → ∃ i input site conn, action = .act i input ∧
      system.connections[i]? = some (site, conn) ∧ conn.epoch = system.shared.resetEpoch

/-- After a reset the other connections accepted before it change no counter. -/
def Invalidates (actions : List Action) : Prop :=
  ∀ past i middle j input later system reset current next,
    actions = past ++ .act i .turn :: (middle ++ .act j input :: later) →
    Machine.run step {} past = some system → system.step (.act i .turn) = some reset →
    reset.shared.resetEpoch ≠ system.shared.resetEpoch → j < system.connections.length → j ≠ i →
    Machine.run step reset middle = some current → current.step (.act j input) = some next →
    next.shared = current.shared

/-- In every run in which a reset is only taken while no other connection waits for its own,
the counters are changed by connections that stored the current epoch only, and a reset
invalidates every other connection accepted before it. -/
theorem reset_invalidates (actions : List Action) (h : Machine.Meets step Unrivalled {} actions) :
    Guarded actions ∧ Invalidates actions := by
  have htimely : ∀ {past later : List Action} {system : System}, actions = past ++ later →
      Machine.run step {} past = some system → system.Timely := by
    intro past later system hactions hrun
    rw [hactions, Machine.meets_append] at h
    exact Machine.run_kept_of_meets timely_step timely_empty h.1 hrun
  refine ⟨?_, ?_⟩
  · intro past action later system next hactions hrun hstep hchanged
    exact (htimely hactions hrun).guarded hstep hchanged
  · intro past i middle j input later system reset current next hactions hrun hreset hepoch hknown
      hother hmiddle hstep
    have hsystem : system.Timely := htimely hactions hrun
    have hbefore : Machine.Meets step Unrivalled system
        (.act i .turn :: (middle ++ .act j input :: later)) := by
      rw [hactions, Machine.meets_append] at h
      exact h.2 system hrun
    have hafter : reset.Timely := timely_step hsystem hbefore.1 hreset
    have hmeets : Machine.Meets step Unrivalled reset middle :=
      (Machine.meets_append.mp (hbefore.2 reset hreset)).1
    -- The connection is stale after the reset, and stays so.
    have hstale : reset.Timely ∧ reset.IsStale j :=
      ⟨hafter, hsystem.isStale hreset hepoch hknown hother⟩
    have hcurrent : current.Timely ∧ current.IsStale j := by
      refine Machine.run_kept_of_meets (P := fun state => state.Timely ∧ state.IsStale j) ?_
        hstale hmeets hmiddle
      intro state action later hstate hunrivalled hlater
      exact ⟨timely_step hstate.1 hunrivalled hlater, hstate.2.kept hstate.1 hlater⟩
    exact hcurrent.2.idle hcurrent.1 hstep

/-- A reset, and then a connection that finds itself stale. -/
theorem reset_invalidates_one :
    Guarded [.accept .acknowledging [], .accept .acknowledging [],
      .act 0 (.inline "DEBUG EVIL MODE RESET" rfl), .act 0 .turn,
      .act 1 (.inline "PING" rfl)] :=
  (reset_invalidates _ (by decide +kernel)).1

/-- The second of two resets that wait together is taken by a stale connection. -/
theorem reset_not_guarded : ¬ ∀ actions, Guarded actions ∧ Invalidates actions := by
  intro h
  have hrun : (Machine.run step {}
      [.accept .acknowledging [], .accept .acknowledging [],
        .act 0 (.inline "DEBUG EVIL MODE RESET" rfl),
        .act 1 (.inline "DEBUG EVIL MODE RESET" rfl),
        .act 0 .turn]).map (fun system => (system.shared,
          system.connections[1]?.map (·.2.epoch), (system.step (.act 1 .turn)).map (·.shared))) =
      some ({ resetEpoch := 1 }, some 0, some { resetEpoch := 2 }) := by
    decide +kernel
  rcases Option.map_eq_some_iff.mp hrun with ⟨system, hsystem, hstate⟩
  simp only [Prod.mk.injEq] at hstate
  rcases hstate with ⟨hshared, hstored, hnext⟩
  rcases Option.map_eq_some_iff.mp hnext with ⟨next, hstep, hreset⟩
  rcases (h _).1 _ (.act 1 .turn) [] system next rfl hsystem hstep (by simp [hshared, hreset]) with
    ⟨i, input, site, conn, haction, hconn, hepoch⟩
  cases haction
  rw [hconn, Option.map_some, Option.some.injEq] at hstored
  rw [hshared, hstored] at hepoch
  cases hepoch

end System

end EvilResp
