import ControlPlane.Proof.Scripts
import ControlPlane.Proof.Telemetry
import ControlPlane.Proof.Billing

/-!
# Redelivered starts and the guarantee

A baseline frozen by a first report carries no anchor, so the next delivery of a start that was
processed before it moves it.
-/

namespace ControlPlane

open ReadCommitted ReadCommitted.Handler Store Option

variable {cfg : Config} {s t u : State} {db : AList Row} {up : Upstream} {slug : String}

def demoGuarantee (s : State) : Option (Option String × Instant × TenantGuaranteeRow) := do
  let billing ← billingRow s.committed 1
  let row : TenantGuaranteeRow ← s.committed.lookup (.guarantee 1)
  some (billing.providerSubscriptionId, billing.subscriptionStartedAt, row)

end ControlPlane
