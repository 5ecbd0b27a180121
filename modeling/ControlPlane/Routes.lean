import ControlPlane.Store.Billing
import ControlPlane.Store.Notifications
import ControlPlane.Store.Park
import ControlPlane.Store.Provisioning
import ControlPlane.Store.Runtime
import ControlPlane.Validation

/-!
# The routes

Each call is one HTTP request whose caller has been authenticated, or a pass of the notification
dispatcher.
-/

namespace ControlPlane

open ReadCommitted.Handler

namespace Routes

/-! ### Lifecycle -/

def suspendTenant (cfg : Config) (rawSlug : String) : Handler TenantSummary := do
  let slug ← require (Validation.slug rawSlug)
  Store.setStatus cfg slug .suspended

def resumeTenant (cfg : Config) (rawSlug : String) : Handler TenantSummary := do
  let slug ← require (Validation.slug rawSlug)
  Store.setStatus cfg slug .active

def noTarget : ApiError :=
  .unavailable "tenant has no successful local CrowdRelay management target"

/-- `area_routes::target`. -/
def target (cfg : Config) (slug : String) : Handler (TenantSummary × String) := do
  let tenant ← Store.tenantBySlug cfg slug
  ensure (tenant.tenant.status ≠ .suspended) (.conflict "tenant is suspended")
  ensure (tenant.tenant.status ≠ .parked) (.conflict "tenant is parked")
  let found ← Store.latestManagementUrl tenant.tenant.id
  let url ← okOr found noTarget
  pure (tenant, url)

/-- A management request whose failure the route reports as unavailable. -/
def requestManagement (context : String) (req : ManagementRequest) : Handler Json := do
  let answer ← request req
  mapErr (fun e => .unavailable (context ++ ": " ++ e.display)) (require answer)

def boolAt (name : String) (fallback : Bool) (document : Json) : Bool :=
  ((document.get name).bind Json.asBool).getD fallback

def intAt (name : String) (fallback : Int) (document : Json) : Int :=
  ((document.get name).bind Json.asInt).getD fallback

def limitAt (name : String) (fallback : Int) (document : Json) : Int :=
  (((document.get name).bind Json.asNat).map fun v => min (v : Int) 2147483647).getD fallback

def parkSnapshot (tenantId : Uuid) (actor : String) (reason : Option String)
    (envelope posture : Json) : ParkSnapshotRow where
  tenantId := tenantId
  parkedAt := 0
  parkedBy := actor
  agentEnabled := boolAt "agentEnabled" false envelope
  dryRun := boolAt "dryRun" true envelope
  posture := ((posture.get "posture").bind Json.asStr).getD "grounded"
  envelopeVersion := intAt "version" 0 envelope
  weeklyOwnedAudienceTouches := limitAt "weeklyOwnedAudienceTouches" 200 envelope
  weeklyThirdPartyTouches := limitAt "weeklyThirdPartyTouches" 10 envelope
  subjectCooldownHours := limitAt "subjectCooldownHours" 168 envelope
  maxRecipientsPerStep := limitAt "maxRecipientsPerStep" 250 envelope
  postureVersion := intAt "expected_version" 1 posture
  reason := reason
  unparkedAt := none
  unparkedBy := none

def parkBody (snapshot : ParkSnapshotRow) : EnvelopeRequest where
  agentEnabled := false
  dryRun := snapshot.dryRun
  weeklyOwnedAudienceTouches := snapshot.weeklyOwnedAudienceTouches
  weeklyThirdPartyTouches := snapshot.weeklyThirdPartyTouches
  subjectCooldownHours := snapshot.subjectCooldownHours
  maxRecipientsPerStep := snapshot.maxRecipientsPerStep
  parked := true
  expectedVersion := snapshot.envelopeVersion

def parkTenant (cfg : Config) (rawSlug actor : String) (reason : Option String) :
    Handler TenantSummary := do
  let slug ← require (Validation.slug rawSlug)
  let checked ← Store.tenantBySlug cfg slug
  ensure (checked.tenant.canSuspend = true)
    (.forbidden "this tenant's lifecycle is externally owned and cannot be parked")
  ensure (checked.tenant.status = .active) (.conflict "tenant must be active to park")
  let (tenant, url) ← target cfg slug
  let tenantId := tenant.tenant.id
  let reason := (reason.map Text.trim).filter (· ≠ "")
  let envelope ← requestManagement "failed to read growth envelope" (.getEnvelope tenantId url)
  let posture ← requestManagement "failed to read posture" (.getPosture tenantId url)
  let snapshot := parkSnapshot tenantId actor reason envelope posture
  Store.saveParkSnapshot snapshot (boolAt "parked" false envelope)
  let _ ← requestManagement "failed to park growth envelope"
    (.postEnvelope tenantId url (parkBody snapshot))
  Store.setStatus cfg slug .parked

/-- The POST that restores a snapshot over the version the GET observed. -/
def restoreBody (snapshot : ParkSnapshotRow) (liveVersion : Int) : EnvelopeRequest where
  agentEnabled := snapshot.agentEnabled
  dryRun := snapshot.dryRun
  weeklyOwnedAudienceTouches := snapshot.weeklyOwnedAudienceTouches
  weeklyThirdPartyTouches := snapshot.weeklyThirdPartyTouches
  subjectCooldownHours := snapshot.subjectCooldownHours
  maxRecipientsPerStep := snapshot.maxRecipientsPerStep
  parked := false
  expectedVersion := liveVersion

/-- The local side of a restore: the status converges, then the snapshot is retired. -/
def finishRestore (cfg : Config) (slug : String) (tenantId : Uuid) (tenantStatus : TenantStatus)
    (actor : String) : Handler Unit := do
  whenever (tenantStatus ≠ .active) (do
    let _ ← Store.setStatus cfg slug .active)
  Store.consumeParkSnapshot tenantId actor

def restoreTenantFromSnapshot (cfg : Config) (slug : String) (tenantId : Uuid) (url : String)
    (snapshot : ParkSnapshotRow) (tenantStatus : TenantStatus) (actor : String) : Handler Unit := do
  let envelope ← requestManagement "failed to read growth envelope" (.getEnvelope tenantId url)
  let liveVersion := intAt "version" snapshot.envelopeVersion envelope
  whenever (boolAt "parked" false envelope = true) (do
    let _ ← requestManagement "failed to restore growth envelope"
      (.postEnvelope tenantId url (restoreBody snapshot liveVersion))
    -- a posture that cannot be restored is only logged
    let _ ← request (.postPosture tenantId url snapshot.posture snapshot.postureVersion))
  finishRestore cfg slug tenantId tenantStatus actor

def noSnapshot : ApiError := .conflict "no park snapshot found"

def unparkTenant (cfg : Config) (rawSlug actor : String) : Handler TenantSummary := do
  let slug ← require (Validation.slug rawSlug)
  let tenant ← Store.tenantBySlug cfg slug
  ensure (tenant.tenant.canSuspend = true)
    (.forbidden "this tenant's lifecycle is externally owned and cannot be unparked")
  let loaded ← Store.loadParkSnapshot tenant.tenant.id
  ensure (tenant.tenant.status = .parked ∨ tenant.tenant.status = .active ∧ loaded.isSome)
    (.conflict "tenant is not parked")
  let snapshot ← okOr loaded noSnapshot
  let found ← Store.latestManagementUrl tenant.tenant.id
  let url ← okOr found noTarget
  restoreTenantFromSnapshot cfg slug tenant.tenant.id url snapshot tenant.tenant.status actor
  Store.tenantBySlug cfg slug

/-! ### Billing -/

structure BillingWebhookRequest where
  tenantSlug : String
  event : String
  provider : Option String
  providerCustomerId : Option String
  providerSubscriptionId : Option String
  subscriptionStartedAt : Option Instant
  trialEndsAt : Option Instant
  currentPeriodEndsAt : Option Instant
deriving DecidableEq, Repr

def BillingWebhookRequest.input (req : BillingWebhookRequest) (event : BillingEvent) :
    BillingEventInput where
  event := event
  provider := req.provider.getD "stripe"
  providerCustomerId := req.providerCustomerId
  providerSubscriptionId := req.providerSubscriptionId
  subscriptionStartedAt := req.subscriptionStartedAt
  trialEndsAt := req.trialEndsAt
  currentPeriodEndsAt := req.currentPeriodEndsAt

def billingActor : String := "billing-webhook"

/-- A payment for a tenant without a workspace becomes its provisioning intent: an approved job if
the tenant is deployable, otherwise a planned one. -/
def provisionOnPayment (cfg : Config) (slug : String) : Handler Unit := do
  let requested ← attempt (do
    let version ← require (Validation.deploymentVersion none cfg.provisionerDefaultImageTag)
    let _ ← Store.requestDeployment cfg slug version cfg.provisionerApiImage
      cfg.provisionerWorkerImage billingActor)
  match requested with
  | .ok () => pure ()
  | .error (.invalidInput _) | .error (.conflict _) => do
    let _ ← Store.planProvisioning cfg slug none none billingActor
  | .error e => throw e

def onSubscriptionStarted (cfg : Config) (slug : String) (tenant : TenantRow)
    (recorded : Option Instant) : Handler Unit := do
  let startedAt ←
    match recorded with
    | some startedAt => pure startedAt
    | none => utcNow
  let _ ← Store.anchorGuaranteeToSubscription tenant.id startedAt
  whenever (tenant.status = .provisioning ∧ tenant.canProvision = true)
    (provisionOnPayment cfg slug)

/-- A payment finishes unparking a tenant that is parked or was left half restored. Answers whether
anything was restored. -/
def onPaymentSucceeded (cfg : Config) (slug : String) (tenant : TenantRow) : Handler Bool := do
  let loaded ← Store.loadParkSnapshot tenant.id
  if tenant.status ≠ .parked ∧ ¬ (tenant.status = .active ∧ loaded.isSome) then pure false
  else do
    let snapshot ← okOr loaded noSnapshot
    let found ← Store.latestManagementUrl tenant.id
    let url ← okOr found noTarget
    restoreTenantFromSnapshot cfg slug tenant.id url snapshot tenant.status billingActor
    pure true

def billingWebhook (cfg : Config) (provided : String) (req : BillingWebhookRequest) :
    Handler Nat := do
  let secret ← okOr cfg.billingWebhookSecret (.unavailable "billing webhook is not configured")
  ensure (provided = secret) .unauthorized
  match BillingEvent.parse req.event with
  | none => pure 204
  | some event => do
    let slug ← require (Validation.slug req.tenantSlug)
    let tenant ← Store.tenantBySlug cfg slug
    let (_, _, recorded) ← Store.applyBillingEvent tenant.tenant.id (req.input event)
    match event with
    | .subscriptionStarted => do
      onSubscriptionStarted cfg slug tenant.tenant recorded
      pure 204
    | .paymentSucceeded => do
      let restored ← onPaymentSucceeded cfg slug tenant.tenant
      pure (if restored then 200 else 204)
    | .paymentFailed | .subscriptionCanceled | .subscriptionRefunded => pure 204

/-! ### Provisioning -/

def planProvisioning (cfg : Config) (rawSlug : String) (desiredVersion : Option String)
    (keys : Option Json) (actor : String) : Handler (ProvisioningJobRow × Bool) := do
  let slug ← require (Validation.slug rawSlug)
  let tenant ← Store.tenantBySlug cfg slug
  let version ← require (Validation.deploymentVersion desiredVersion cfg.provisionerDefaultImageTag)
  Store.planProvisioning cfg tenant.tenant.slug (some version) keys actor

def provisionTenant (cfg : Config) (rawSlug : String) (desiredVersion : Option String)
    (actor : String) : Handler (ProvisioningJobRow × Bool) := do
  let slug ← require (Validation.slug rawSlug)
  ensure (cfg.provisionerConfigured = true) (.unavailable "tenant provisioner is not configured")
  let version ← require (Validation.deploymentVersion desiredVersion cfg.provisionerDefaultImageTag)
  Store.requestDeployment cfg slug version cfg.provisionerApiImage cfg.provisionerWorkerImage actor

def cancelProvisioning (cfg : Config) (rawSlug : String) : Handler ProvisioningJobRow := do
  let slug ← require (Validation.slug rawSlug)
  let tenant ← Store.tenantBySlug cfg slug
  Store.cancelProvisioning cfg tenant.tenant.slug

def claimProvisioning (cfg : Config) (workerId : String) (dataRegion : Option String) :
    Handler (Option ProvisioningClaim) := do
  let workerId ← require (Validation.workerId workerId)
  let dataRegion ← require (Validation.dataRegion dataRegion)
  Store.claimProvisioning cfg workerId dataRegion cfg.provisionerLeaseSeconds

def renewProvisioningLease (cfg : Config) (jobId : Uuid) (workerId claimToken : String) :
    Handler ProvisioningJobRow := do
  let workerId ← require (Validation.workerId workerId)
  let claimToken ← require (Validation.claimToken claimToken)
  Store.renewProvisioningLease cfg jobId workerId claimToken cfg.provisionerLeaseSeconds

def completeProvisioning (cfg : Config) (jobId : Uuid) (workerId claimToken : String)
    (completion : ProvisioningCompletion) : Handler ProvisioningJobRow := do
  let workerId ← require (Validation.workerId workerId)
  let claimToken ← require (Validation.claimToken claimToken)
  require (Validation.provisionSuccess completion)
  Store.completeProvisioning cfg jobId workerId claimToken completion

def failProvisioning (cfg : Config) (jobId : Uuid) (workerId claimToken errorCode : String)
    (errorDetail : Option String) : Handler ProvisioningJobRow := do
  let workerId ← require (Validation.workerId workerId)
  let claimToken ← require (Validation.claimToken claimToken)
  let (errorCode, errorDetail) ← require (Validation.provisionFailure errorCode errorDetail)
  Store.failProvisioning cfg jobId workerId claimToken errorCode errorDetail

/-! ### Telemetry -/

def reportRuntime (cfg : Config) (rawSlug : String) (input : RuntimeReportRequest) :
    Handler TenantSummary := do
  let slug ← require (Validation.slug rawSlug)
  let now ← utcNow
  require (Validation.runtimeReport input now)
  Store.reportRuntime cfg slug input

def tenantGuarantee (cfg : Config) (rawSlug : String) : Handler GuaranteeView := do
  let slug ← require (Validation.slug rawSlug)
  let tenant ← Store.tenantBySlug cfg slug
  Store.tenantGuarantee cfg tenant.tenant.slug

/-! ### Delivery -/

/-- `DELIVERY_TIMEOUT`: no delivery takes longer. -/
def deliveryTimeout : Int := seconds 10

/-- Each delivery is awaited and its outcome recorded before the next one; an error of the store ends
the pass. -/
def deliverEach (deliver : Store.PendingNotification → Option String) :
    List Store.PendingNotification → Handler Unit
  | [] => pure ()
  | notification :: rest => do
    Store.completeNotification notification.id (deliver notification)
    deliverEach deliver rest

def dispatchPendingNotifications (deliver : Store.PendingNotification → Option String) :
    Handler Unit := do
  let notifications ← Store.claimDueNotifications 8
  deliverEach deliver notifications

end Routes

inductive Call where
  | suspend (slug : String)
  | resume (slug : String)
  | park (slug actor : String) (reason : Option String)
  | unpark (slug actor : String)
  | webhook (provided : String) (req : Routes.BillingWebhookRequest)
  | plan (slug : String) (desiredVersion : Option String) (keys : Option Json) (actor : String)
  | provision (slug : String) (desiredVersion : Option String) (actor : String)
  | cancel (slug : String)
  | claim (workerId : String) (dataRegion : Option String)
  | renew (jobId : Uuid) (workerId claimToken : String)
  | complete (jobId : Uuid) (workerId claimToken : String) (completion : ProvisioningCompletion)
  | fail (jobId : Uuid) (workerId claimToken errorCode : String) (errorDetail : Option String)
  | report (slug : String) (input : RuntimeReportRequest)
  | guarantee (slug : String)
  /-- With the error each delivery comes to, if it fails. -/
  | dispatch (deliver : Store.PendingNotification → Option String)

inductive Reply where
  | tenant (summary : TenantSummary)
  | status (code : Nat)
  | job (row : ProvisioningJobRow) (created : Bool)
  | claim (claim : Option ProvisioningClaim)
  | guarantee (view : GuaranteeView)
  | dispatched

open Routes in
def handle (cfg : Config) : Call → Handler Reply
  | .suspend slug => .tenant <$> suspendTenant cfg slug
  | .resume slug => .tenant <$> resumeTenant cfg slug
  | .park slug actor reason => .tenant <$> parkTenant cfg slug actor reason
  | .unpark slug actor => .tenant <$> unparkTenant cfg slug actor
  | .webhook provided req => .status <$> billingWebhook cfg provided req
  | .plan slug version keys actor =>
    (fun answer => .job answer.1 answer.2) <$> planProvisioning cfg slug version keys actor
  | .provision slug version actor =>
    (fun answer => .job answer.1 answer.2) <$> provisionTenant cfg slug version actor
  | .cancel slug => (.job · false) <$> cancelProvisioning cfg slug
  | .claim workerId dataRegion => .claim <$> claimProvisioning cfg workerId dataRegion
  | .renew jobId workerId token => (.job · false) <$> renewProvisioningLease cfg jobId workerId token
  | .complete jobId workerId token completion =>
    (.job · false) <$> completeProvisioning cfg jobId workerId token completion
  | .fail jobId workerId token code detail =>
    (.job · false) <$> failProvisioning cfg jobId workerId token code detail
  | .report slug input => .tenant <$> reportRuntime cfg slug input
  | .guarantee slug => .guarantee <$> tenantGuarantee cfg slug
  | .dispatch deliver => (fun _ => .dispatched) <$> dispatchPendingNotifications deliver

def server (cfg : Config) :
    ReadCommitted.Server Row Index ManagementRequest (Except ApiError Json) Upstream Call
      (Except ApiError Reply) where
  schema := schema
  handler call := (handle cfg call).run

abbrev State :=
  ReadCommitted.Sys Row Index ManagementRequest (Except ApiError Json) Upstream Call
    (Except ApiError Reply)

abbrev Step :=
  ReadCommitted.Event Row Index ManagementRequest (Except ApiError Json) Upstream Call
    (Except ApiError Reply)

def registration (id tenantId : Uuid) (url : String) (createdAt updatedAt : Instant) :
    ProvisioningJobRow :=
  { Store.newJob id tenantId .succeeded none (.obj [("kind", .str "external_registration")])
      "ensure_virya" createdAt with
    finishedAt := some createdAt
    result := some
      { apiPort := none, localApiUrl := some url, workspaceId := none, schemaVersion := none,
        deployedSha := none, provisionerWorkerId := none, completedAt := none }
    updatedAt := updatedAt }

/-- The jobs there are before the first call: registrations, and the deployments tenants were
created with. -/
inductive InitialJob (cfg : Config) (id : Uuid) : ProvisioningJobRow → Prop
  | registered (tenantId : Uuid) (url : String) (createdAt updatedAt : Instant) :
      InitialJob cfg id (registration id tenantId url createdAt updatedAt)
  | createdWithTenant (tenant : TenantRow) (spec : Store.TenantDeploymentSpec) (plan : Json)
      (hplan : Store.deploymentPlan cfg tenant spec = .ok plan) (actor : String) (now : Instant) :
      InitialJob cfg id
        (Store.newJob id tenant.id .approved (some spec.desiredVersion) plan actor now)

structure Booted (cfg : Config) (s : State) : Prop where
  atRest : s.AtRest
  jobs : ∀ id row, s.committed.lookup (.job id) = some row → InitialJob cfg id row
  oneActive : ∀ id id' (row row' : ProvisioningJobRow), s.committed.lookup (.job id) = some row →
    s.committed.lookup (.job id') = some row' → row.status.isActive = true →
    row'.status.isActive = true → row.tenantId = row'.tenantId → id = id'

end ControlPlane
