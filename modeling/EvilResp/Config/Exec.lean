import EvilResp.Config.Options

/-!
# EXEC edit settings

Which edit of the outer EXEC array is made, and how often.

Main results:

- Theorem {lit}`ExecConfig.quiet_parse`: no EXEC command raises a multi-line error.
-/

namespace EvilResp

open Library

/-- How the outer array of a transaction is edited. -/
inductive ExecAction where
  | off
  | random
  | remove
  | duplicate
  | swap
deriving DecidableEq

/-- The settings of such edits. -/
structure ExecConfig where
  action : ExecAction := .off
  probability : F64 := .hundred
deriving DecidableEq

namespace ExecConfig

/-- The one error of this command. -/
def invalidExec : AppError :=
  invalid
    "expected EXEC <OFF|RANDOM|REMOVE|DUPLICATE|SWAP> [PROBABILITY <0..100>]; OFF accepts no options"

/-- Read the edit, in any letter case. -/
def parseAction (action : String) : AppResult ExecAction :=
  match toAsciiUppercase action with
  | "OFF" => .ok .off
  | "RANDOM" => .ok .random
  | "REMOVE" => .ok .remove
  | "DUPLICATE" => .ok .duplicate
  | "SWAP" => .ok .swap
  | _ => .error invalidExec

/-- Read the settings; without a probability the edit always happens. -/
def parse : List String → AppResult ExecConfig
  | [] => .error invalidExec
  | name :: args => do
      let action ← parseAction name
      match args with
      | [] => .ok { action }
      | [option, value] =>
          if action ≠ .off ∧ eqIgnoreAsciiCase option "PROBABILITY" then do
            let probability ← parseProbability value
            .ok { action, probability }
          else .error invalidExec
      | _ => .error invalidExec

/-- The settings, as {lit}`DEBUG EVIL STATUS` shows them. -/
def status (config : ExecConfig) : String :=
  let action :=
    match config.action with
    | .off => "OFF"
    | .random => "RANDOM"
    | .remove => "REMOVE"
    | .duplicate => "DUPLICATE"
    | .swap => "SWAP"
  s!"exec={action} exec_probability={config.probability.displayFixed 2}"

/-- The usage of the command is on one line. -/
theorem singleLine_invalidExec : SingleLine invalidExec.message :=
  singleLine_invalid.mpr (singleLine_ofList rfl)

/-- No EXEC command raises a multi-line error. -/
theorem quiet_parse (args : List String) : Quiet (parse args) := by
  have hinvalid {α : Type} : Quiet (.error invalidExec : AppResult α) :=
    quiet_error.mpr singleLine_invalidExec
  unfold parse
  split
  · exact hinvalid
  · refine quiet_bind ?_ fun action _ => ?_
    · unfold parseAction
      split
      case h_6 => exact hinvalid
      all_goals exact quiet_ok
    · split
      · exact quiet_ok
      · apply quiet_ite
        · exact quiet_bind (quiet_parseProbability _) fun _ _ => quiet_ok
        · exact hinvalid
      · exact hinvalid

end ExecConfig

end EvilResp
