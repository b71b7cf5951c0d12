import EvilResp.Library.Text

/-!
# Transactions

The proxy follows the transaction of a connection by the replies of the upstream, so
that the results of EXEC are canonicalized under the names of the queued commands.
-/

namespace EvilResp

open Library

/-- The names queued so far, while a transaction is open. -/
structure TransactionCommands where
  queued : Option (List String) := none
deriving DecidableEq

/-- The replies that end a transaction at EXEC. -/
def endsTransaction (reply : Bytes) : Bool :=
  reply.head? = some 42 ∨ reply.head? = some 95 ∨ (asBytes "-EXECABORT ").isPrefixOf reply

/-- Observe the unmodified reply of the upstream.  Returns the tracker and, where the
transaction ended, its commands. -/
def TransactionCommands.observe (transaction : TransactionCommands) (argv : List String)
    (reply : Bytes) : TransactionCommands × Option (List String) :=
  match argv with
  | [] => (transaction, none)
  | first :: _ =>
      let command := toAsciiUppercase first
      if command = "MULTI" ∧ reply = asBytes "+OK\r\n" then ({ queued := some [] }, none)
      else if command = "DISCARD" ∧ reply = asBytes "+OK\r\n" then ({ queued := none }, none)
      else if command = "EXEC" ∧ endsTransaction reply then ({ queued := none }, transaction.queued)
      else if reply = asBytes "+QUEUED\r\n" then
        ({ queued := transaction.queued.map (· ++ [command]) }, none)
      else (transaction, none)

end EvilResp
