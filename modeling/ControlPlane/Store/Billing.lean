import ControlPlane.Store.Tenants

/-!
# The subscription row

The state is read `FOR UPDATE`, which locks the row if there is one.
-/

namespace ControlPlane.Store

open ReadCommitted.Handler

def inTrial (input : BillingEventInput) (now : Instant) : Bool := input.trialEndsAt.any (now < ·)

def proposedStart (input : BillingEventInput) (now : Instant) : Instant :=
  if input.event = .subscriptionStarted then input.subscriptionStartedAt.getD now else now

def newBilling (tenantId : Uuid) (input : BillingEventInput) (state : BillingState)
    (startedAt now : Instant) : TenantBillingRow where
  tenantId := tenantId
  provider := input.provider
  providerCustomerId := input.providerCustomerId
  providerSubscriptionId := input.providerSubscriptionId
  state := state
  subscriptionStartedAt := startedAt
  trialEndsAt := input.trialEndsAt
  currentPeriodEndsAt := input.currentPeriodEndsAt
  updatedAt := now

def namesOther (input : BillingEventInput) (row : TenantBillingRow) : Bool :=
  input.providerSubscriptionId.isSome && row.providerSubscriptionId ≠ input.providerSubscriptionId

/-- `ON CONFLICT DO UPDATE`. Only a start that names another subscription replaces the start. -/
def mergeBilling (input : BillingEventInput) (state : BillingState) (startedAt now : Instant)
    (row : TenantBillingRow) : TenantBillingRow where
  tenantId := row.tenantId
  provider := input.provider
  providerCustomerId := input.providerCustomerId.or row.providerCustomerId
  providerSubscriptionId := input.providerSubscriptionId.or row.providerSubscriptionId
  state := state
  subscriptionStartedAt :=
    if input.event = .subscriptionStarted ∧ namesOther input row then startedAt
    else row.subscriptionStartedAt
  trialEndsAt := input.trialEndsAt.or row.trialEndsAt
  currentPeriodEndsAt := input.currentPeriodEndsAt.or row.currentPeriodEndsAt
  updatedAt := now

/-- The previous state, the state after, and the recorded start when the event moved the machine. -/
def applyBillingEvent (tenantId : Uuid) (input : BillingEventInput) :
    Handler (Option BillingState × Option BillingState × Option Instant) := do
  let now ← utcNow
  inTransaction do
    let sqlTime ← sqlNow
    let current : Option TenantBillingRow ← lock (Key.billing tenantId)
    let previous := current.map (·.state)
    match BillingState.apply previous input.event (inTrial input now) with
    | none => pure (previous, previous, none)
    | some state => do
      let startedAt := proposedStart input now
      let stored : TenantBillingRow ← upsert (Key.billing tenantId)
        (newBilling tenantId input state startedAt sqlTime)
        (mergeBilling input state startedAt sqlTime)
      pure (previous, some state, some stored.subscriptionStartedAt)

end ControlPlane.Store
