import Mathlib.Algebra.Group.Defs
import Mathlib.Tactic.Common
import EvilResp.Proxy.Settings

/-!
# Monitoring counters

Counters that all connections share and that nothing resets: clients, and the commands that
read or change settings.  What a command adds depends on the command and on the settings it
finds, so it is described by what it adds.

Main results:

- Theorem {lit}`Stats.evilResets_countDebugEvil`: exactly the commands that start a reset are
  counted as one.
-/

namespace EvilResp

open Library
open EvilResp.Resp

/-- The counters of a process, or what is added to them. -/
@[ext]
structure Stats where
  clientsTotal : Nat := 0
  clientsActive : Nat := 0
  evilUpdates : Nat := 0
  evilStatusReads : Nat := 0
  evilRejected : Nat := 0
  evilResets : Nat := 0
  modeOff : Nat := 0
  modeRandom : Nat := 0
  modeMutate : Nat := 0
  modeOverflow : Nat := 0
deriving DecidableEq

namespace Stats

/-! ## Sums -/

instance : Zero Stats := ⟨{}⟩

instance : Add Stats where
  add a b := {
    clientsTotal := a.clientsTotal + b.clientsTotal
    clientsActive := a.clientsActive + b.clientsActive
    evilUpdates := a.evilUpdates + b.evilUpdates
    evilStatusReads := a.evilStatusReads + b.evilStatusReads
    evilRejected := a.evilRejected + b.evilRejected
    evilResets := a.evilResets + b.evilResets
    modeOff := a.modeOff + b.modeOff
    modeRandom := a.modeRandom + b.modeRandom
    modeMutate := a.modeMutate + b.modeMutate
    modeOverflow := a.modeOverflow + b.modeOverflow }

/-- Counters are added one by one. -/
theorem add_def (a b : Stats) : a + b = {
    clientsTotal := a.clientsTotal + b.clientsTotal
    clientsActive := a.clientsActive + b.clientsActive
    evilUpdates := a.evilUpdates + b.evilUpdates
    evilStatusReads := a.evilStatusReads + b.evilStatusReads
    evilRejected := a.evilRejected + b.evilRejected
    evilResets := a.evilResets + b.evilResets
    modeOff := a.modeOff + b.modeOff
    modeRandom := a.modeRandom + b.modeRandom
    modeMutate := a.modeMutate + b.modeMutate
    modeOverflow := a.modeOverflow + b.modeOverflow } :=
  rfl

/-- Nothing counted. -/
theorem zero_def : (0 : Stats) = {} :=
  rfl

instance : AddCommMonoid Stats where
  add_assoc a b c := by ext <;> simp [add_def, Nat.add_assoc]
  zero_add a := by ext <;> simp [add_def, zero_def]
  add_zero a := by ext <;> simp [add_def, zero_def]
  add_comm a b := by ext <;> simp [add_def, Nat.add_comm]
  nsmul := nsmulRec

/-! ## Counting -/

/-- A client that connects. -/
def clientConnected : Stats :=
  { clientsTotal := 1, clientsActive := 1 }

/-- The end of a connection. -/
def clientDropped (stats : Stats) : Stats :=
  { stats with clientsActive := stats.clientsActive - 1 }

/-- A command that set something. -/
def configurationUpdated : Stats :=
  { evilUpdates := 1 }

/-- A command that asked for the settings. -/
def statusRead : Stats :=
  { evilStatusReads := 1 }

/-- A command that was refused. -/
def commandRejected : Stats :=
  { evilRejected := 1 }

/-- A reset of the shared counters. -/
def reset : Stats :=
  { evilResets := 1 }

/-- A mode that was set. -/
def modeSelected : EvilMode → Stats
  | .off => { modeOff := 1 }
  | .random => { modeRandom := 1 }
  | .mutate => { modeMutate := 1 }
  | .overflow => { modeOverflow := 1 }

/-- What is counted for a command that changes the settings. -/
def countDebugEvil (lib : Externals) (config : EvilConfig) (argv : List String)
    (resetSupported : Bool) : Stats :=
  match config.applyDebugCommand lib argv with
  | .error _ => commandRejected
  | .ok (next, result) =>
      if next.transport.requiresTcp ∧ !resetSupported then commandRejected
      else
        let subcommand := argv.getD 2 ""
        if eqIgnoreAsciiCase subcommand "STATUS" then statusRead
        else if eqIgnoreAsciiCase subcommand "HELP" then 0
        else
          configurationUpdated +
            if result.action = .resetIncrementingState then reset
            else if eqIgnoreAsciiCase subcommand "MODE" then modeSelected next.mode
            else 0

/-- What is counted for a command that sets the temperature. -/
def countDebugChaos (lib : Externals) (config : EvilConfig) (argv : List String) : Stats :=
  match Chaos.apply lib config argv with
  | .ok _ => configurationUpdated
  | .error _ => commandRejected

/-! ## Resets -/

/-- A command whose last step is acknowledged starts no reset. -/
theorem calm_ok {config next : EvilConfig} {result : DebugResult}
    (h : (.ok (config, DebugResult.ok) : AppResult (EvilConfig × DebugResult)) =
      .ok (next, result)) : result.action = .none := by
  obtain ⟨-, rfl⟩ := Prod.mk.inj (Except.ok.inj h)
  rfl

/-- Where no argument leaves something to do, reading one first leaves nothing to do. -/
theorem calm_bind {next : EvilConfig} {result : DebugResult} {α : Type} {x : AppResult α}
    {f : α → AppResult (EvilConfig × DebugResult)}
    (hf : ∀ a, f a = .ok (next, result) → result.action = .none)
    (h : (x >>= f) = .ok (next, result)) : result.action = .none := by
  obtain ⟨a, -, ha⟩ := bind_eq_ok_iff.mp h
  exact hf a ha

/-- Only one subcommand can start a reset. -/
theorem subcommand_of_reset {lib : Externals} {config next : EvilConfig} {result : DebugResult}
    {name : String} {args : List String}
    (h : config.applySubcommand lib name args = .ok (next, result))
    (hreset : result.action = .resetIncrementingState) : name = "MODE" := by
  by_contra hname
  have hcalm : result.action = .none := by
    unfold EvilConfig.applySubcommand at h
    split at h
    case h_1 =>
      cases args with
      | nil => cases h
      | cons seed options =>
          simp only [EvilConfig.applySeed] at h
          split_ifs at h
          exact calm_bind (fun _ => calm_ok) h
    case h_2 => exact absurd rfl hname
    case h_7 | h_8 | h_9 => exact calm_bind (fun _ => calm_bind fun _ => calm_ok) h
    case h_12 =>
      split_ifs at h
      obtain ⟨-, rfl⟩ := Prod.mk.inj (Except.ok.inj h)
      rfl
    case h_13 =>
      split_ifs at h
      obtain ⟨-, rfl⟩ := Prod.mk.inj (Except.ok.inj h)
      rfl
    case h_16 => cases h
    all_goals exact calm_bind (fun _ => calm_ok) h
  rw [hcalm] at hreset
  cases hreset

/-- Exactly the commands that start a reset are counted as one. -/
theorem evilResets_countDebugEvil (lib : Externals) (config : EvilConfig) (argv : List String)
    (resetSupported : Bool) :
    (countDebugEvil lib config argv resetSupported).evilResets =
      if (applyDebugEvil lib config argv resetSupported).2.action = .resetIncrementingState then 1
      else 0 := by
  unfold countDebugEvil applyDebugEvil
  cases happly : config.applyDebugCommand lib argv with
  | error error => simp [commandRejected]
  | ok outcome =>
      rcases outcome with ⟨next, result⟩
      dsimp only
      by_cases hrefused : next.transport.requiresTcp = true ∧ (!resetSupported) = true
      · simp [hrefused, commandRejected]
      · simp only [if_neg hrefused]
        by_cases hreset : result.action = .resetIncrementingState
        · have hmode : toAsciiUppercase (argv.getD 2 "") = "MODE" := by
            rcases argv with _ | ⟨debug, _ | ⟨evil, _ | ⟨name, args⟩⟩⟩
            · cases happly
            · cases happly
            · cases happly
            · simp only [EvilConfig.applyDebugCommand] at happly
              split_ifs at happly
              exact subcommand_of_reset happly hreset
          have hstatus : eqIgnoreAsciiCase (argv.getD 2 "") "STATUS" = false := by
            rw [Bool.eq_false_iff, ne_eq, eqIgnoreAsciiCase_iff_uppercase, hmode]
            decide
          have hhelp : eqIgnoreAsciiCase (argv.getD 2 "") "HELP" = false := by
            rw [Bool.eq_false_iff, ne_eq, eqIgnoreAsciiCase_iff_uppercase, hmode]
            decide
          simp only [hstatus, hhelp, hreset, Bool.false_eq_true, if_false, if_true]
          rfl
        · simp only [if_neg hreset]
          split_ifs
          · rfl
          · rfl
          · cases next.mode <;> rfl
          · rfl

/-- {lit}`DEBUG CHAOS` never counts as a reset. -/
theorem evilResets_countDebugChaos (lib : Externals) (config : EvilConfig) (argv : List String) :
    (countDebugChaos lib config argv).evilResets = 0 := by
  unfold countDebugChaos
  split <;> rfl

end Stats

end EvilResp
