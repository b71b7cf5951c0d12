import Mathlib.Data.List.Basic

/-!
# Dialogues

One side sends commands, the other answers each of them in order.  What a command
is answered may depend on everything that was sent before it.  Commands may be
sent before the earlier answers were read; the replies still waiting are those of
the commands after the last answered one.

Main results:

- Theorem {lit}`Answered.length_eq`: an answered dialogue has one reply for each
  command.
- Theorem {lit}`replies_append`: the replies to a pipeline come in the order of its
  commands.
-/

namespace Library

variable {Command Reply : Type}

/-- Every reply is an answer to the commands up to its own. -/
inductive Answered (answers : List Command → Reply → Prop) : List Command → List Reply → Prop where
  | nil : Answered answers [] []
  | snoc {commands : List Command} {command : Command} {received : List Reply} {reply : Reply} :
      Answered answers commands received → answers (commands ++ [command]) reply →
      Answered answers (commands ++ [command]) (received ++ [reply])

/-- An answered dialogue has one reply for each command. -/
theorem Answered.length_eq {answers : List Command → Reply → Prop} {commands : List Command}
    {received : List Reply} (h : Answered answers commands received) :
    commands.length = received.length := by
  induction h with
  | nil => rfl
  | snoc _ _ ih => simp [ih]

/-- The answers to a pipeline, after the commands that were answered already. -/
def replies (answer : List Command → Reply) : List Command → List Command → List Reply
  | _, [] => []
  | answered, command :: waiting =>
      answer (answered ++ [command]) :: replies answer (answered ++ [command]) waiting

/-- The replies to a pipeline come in the order of its commands. -/
theorem replies_append (answer : List Command → Reply) (waiting later : List Command) :
    ∀ answered : List Command, replies answer answered (waiting ++ later) =
      replies answer answered waiting ++ replies answer (answered ++ waiting) later := by
  induction waiting with
  | nil =>
      intro answered
      simp [replies]
  | cons command waiting ih =>
      intro answered
      simp [replies, ih]

end Library
