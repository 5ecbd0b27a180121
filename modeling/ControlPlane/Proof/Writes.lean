import ControlPlane.ReadCommitted.Protocol
import ControlPlane.Routes

/-!
# What each call may write

For every table, the transitions of a row and the calls that may make them. Everything about whole
runs is proved from these relations.
-/

namespace ControlPlane

open ReadCommitted Store

structure HoldsClaim (cfg : Config) (workerId claimToken : String) (readings : List Instant)
    (row : ProvisioningJobRow) : Prop where
  running : row.status = .running
  worker : row.claimedBy = some workerId
  token : row.claimTokenHash = some (cfg.sha256 claimToken)
  lease : ∃ deadline now, row.leaseExpiresAt = some deadline ∧ readings.getLast? = some now ∧
    now < deadline

def Call.plans : Call → Prop
  | .plan .. | .provision .. | .webhook .. => True
  | _ => False

inductive JobWrite (cfg : Config) (call : Call) (readings : List Instant) (id : Uuid) :
    Access → Option ProvisioningJobRow → ProvisioningJobRow → Prop
  | planned (hcall : call.plans) (tenant : TenantRow) (version : Option String) (keys : Option Json)
      (actor : String) (now : Instant) :
      JobWrite cfg call readings id .insert none
        (newJob id tenant.id .planned version (provisioningPlan tenant keys) actor now)
  | requested (hcall : call.plans) (tenant : TenantRow) (spec : TenantDeploymentSpec) (plan : Json)
      (hplan : deploymentPlan cfg tenant spec = .ok plan) (actor : String) (now : Instant) :
      JobWrite cfg call readings id .insert none
        (newJob id tenant.id .approved (some spec.desiredVersion) plan actor now)
  | approved (hcall : call.plans) (tenant : TenantRow) (spec : TenantDeploymentSpec) (plan : Json)
      (hplan : deploymentPlan cfg tenant spec = .ok plan) (now : Instant) (row : ProvisioningJobRow)
      (hstatus : row.status = .planned) :
      JobWrite cfg call readings id .update (some row)
        (approvePlan plan spec.desiredVersion now row)
  | cancelled (slug : String) (hcall : call = .cancel slug) (now : Instant)
      (row : ProvisioningJobRow) (hstatus : row.status = .planned ∨ row.status = .approved) :
      JobWrite cfg call readings id .update (some row) (Store.cancelled now row)
  | exhausted (worker : String) (region : Option String) (hcall : call = .claim worker region)
      (now : Instant) (row : ProvisioningJobRow) (hlapsed : isExhausted now row = true) :
      JobWrite cfg call readings id .update (some row) (Store.exhausted now row)
  | reapproved (worker : String) (region : Option String) (hcall : call = .claim worker region)
      (now : Instant) (row : ProvisioningJobRow) (hlapsed : isReclaimable now row = true) :
      JobWrite cfg call readings id .update (some row) (Store.reapproved now row)
  | claimed (rawWorker : String) (rawRegion : Option String)
      (hcall : call = .claim rawWorker rawRegion) (worker : String) (region : Option String)
      (hworker : Validation.workerId rawWorker = .ok worker)
      (hregion : Validation.dataRegion rawRegion = .ok region) (token : String)
      (lease now : Instant) (row : ProvisioningJobRow) (hclaimable : isClaimable region row = true) :
      JobWrite cfg call readings id .update (some row)
        (Store.claimed worker (cfg.sha256 token) lease now row)
  | renewed (rawWorker rawToken : String) (hcall : call = .renew id rawWorker rawToken)
      (worker token : String) (hworker : Validation.workerId rawWorker = .ok worker)
      (htoken : Validation.claimToken rawToken = .ok token) (lease now : Instant)
      (row : ProvisioningJobRow) (hclaim : HoldsClaim cfg worker token readings row) :
      JobWrite cfg call readings id .update (some row) (Store.renewed lease now row)
  | succeeded (rawWorker rawToken : String) (completion : ProvisioningCompletion)
      (hcall : call = .complete id rawWorker rawToken completion) (worker token : String)
      (hworker : Validation.workerId rawWorker = .ok worker)
      (htoken : Validation.claimToken rawToken = .ok token) (slug : String)
      (completedAt now : Instant) (row : ProvisioningJobRow)
      (hclaim : HoldsClaim cfg worker token readings row) :
      JobWrite cfg call readings id .update (some row)
        (Store.succeeded (completionResult slug worker completion completedAt) now row)
  | failed (rawWorker rawToken rawCode : String) (rawDetail : Option String)
      (hcall : call = .fail id rawWorker rawToken rawCode rawDetail) (worker token code : String)
      (detail : Option String) (hworker : Validation.workerId rawWorker = .ok worker)
      (htoken : Validation.claimToken rawToken = .ok token)
      (hfailure : Validation.provisionFailure rawCode rawDetail = .ok (code, detail))
      (now : Instant) (row : ProvisioningJobRow)
      (hclaim : HoldsClaim cfg worker token readings row) :
      JobWrite cfg call readings id .update (some row) (Store.failed code detail now row)

structure JobOk (id : Uuid) (row : ProvisioningJobRow) : Prop where
  keyed : row.id = id
  claim : claimCheck row = true
  error : errorCheck row = true
  planned : row.status = .planned → row.attemptCount = 0
  approved : row.status = .approved → row.attemptCount ≤ 2
  attempts : row.attemptCount ≤ 3
  schema : row.status = .running →
    row.plan.textAt "schema" = some "3" ∨ row.plan.textAt "schema" = some "4" ∨
      row.plan.textAt "schema" = some "5"

def Call.sets : Call → TenantStatus → Prop
  | .suspend _, status => status = .suspended
  | .resume _, status => status = .active
  | .park .., status => status = .parked
  | .unpark .., status => status = .active
  | .webhook .., status => status = .active
  | _, _ => False

inductive TenantWrite (call : Call) : Option TenantRow → TenantRow → Prop
  | status (status : TenantStatus) (hcall : call.sets status) (now : Instant) (row : TenantRow) :
      TenantWrite call (some row) { row with status := status, updatedAt := now }
  | deployed (jobId : Uuid) (worker token : String) (completion : ProvisioningCompletion)
      (hcall : call = .complete jobId worker token completion) (now : Instant) (row : TenantRow) :
      TenantWrite call (some row) (Store.deployed completion.workspaceId now row)

inductive RuntimeWrite (call : Call) (tenantId : Uuid) :
    Option RuntimeStatusRow → RuntimeStatusRow → Prop
  | report (slug : String) (input : RuntimeReportRequest) (hcall : call = .report slug input)
      (now : Instant) (old : Option RuntimeStatusRow) :
      RuntimeWrite call tenantId old
        (old.elim (reportedRow tenantId input now) (mergeReport input now))
  | deployed (jobId : Uuid) (worker token : String) (completion : ProvisioningCompletion)
      (hcall : call = .complete jobId worker token completion) (old : Option RuntimeStatusRow) :
      RuntimeWrite call tenantId old (old.elim (unobserved tenantId completion) (redeployed completion))

/-- A webhook event applied to the billing row. The machine moved from the state the call read: the
state of the row it holds, or none if it found no row to lock. -/
inductive BillingWrite (call : Call) (tenantId : Uuid) :
    Access → Option TenantBillingRow → TenantBillingRow → Prop
  | event (provided : String) (req : Routes.BillingWebhookRequest) (event : BillingEvent)
      (hcall : call = .webhook provided req) (hevent : BillingEvent.parse req.event = some event)
      (held : Bool) (old : Option TenantBillingRow) (previous : Option BillingState)
      (hprevious : previous = if held then old.map (·.state) else none)
      (inTrial : Bool) (state : BillingState)
      (hstate : BillingState.apply previous event inTrial = some state)
      (utc now : Instant) :
      BillingWrite call tenantId (.upsert held) old
        (old.elim
          (newBilling tenantId (req.input event) state (proposedStart (req.input event) utc) now)
          (mergeBilling (req.input event) state (proposedStart (req.input event) utc) now))

inductive GuaranteeWrite (call : Call) (tenantId : Uuid) :
    Option TenantGuaranteeRow → TenantGuaranteeRow → Prop
  | measured (slug : String) (input : RuntimeReportRequest) (hcall : call = .report slug input)
      (fans : Int) (hfans : input.northStarFans = some fans) (now : Instant) (seen : AList Row) :
      GuaranteeWrite call tenantId none
        (firstGuarantee tenantId fans input.lastHeartbeatAt now seen)
  | anchored (provided : String) (req : Routes.BillingWebhookRequest)
      (hcall : call = .webhook provided req)
      (hevent : BillingEvent.parse req.event = some .subscriptionStarted) (startedAt : Instant)
      (fans : Option Int) (row : TenantGuaranteeRow)
      (hmoved : row.anchoredStartedAt ≠ some startedAt) :
      GuaranteeWrite call tenantId (some row) (Store.anchored startedAt fans row)

def Call.parks : Call → Prop
  | .park .. | .unpark .. | .webhook .. => True
  | _ => False

def Call.reports : Call → Prop
  | .report .. => True
  | _ => False

def Call.notifies : Call → NotifierEvent → Prop
  | .report .., _ => True
  | .fail .., event => event = .provisioningFailed
  | _, _ => False

inductive OutboxWrite (call : Call) (id : Uuid) : Option OutboxRow → OutboxRow → Prop
  | enqueued (event : NotifierEvent) (hcall : call.notifies event) (payload : Json) (now : Instant)
      (channel : NotifierChannelRow) :
      OutboxWrite call id none (Store.enqueued id event payload now channel)
  | dispatched (deliver : PendingNotification → Option String) (hcall : call = .dispatch deliver)
      (old new : OutboxRow) : OutboxWrite call id (some old) new

def callWrites (cfg : Config) (call : Call) : Writes Row := fun readings access key old new =>
  match key with
  | .job id => JobWrite cfg call readings id access old new
  | .tenant _ => TenantWrite call old new ∧ access = .update
  | .runtime tenantId => RuntimeWrite call tenantId old new
  | .billing tenantId => BillingWrite call tenantId access old new
  | .guarantee tenantId => GuaranteeWrite call tenantId old new
  | .parkSnapshot _ => call.parks
  | .outreachAlert _ => call.reports
  | .channel _ | .slug _ | .account _ | .audit _ | .advisory _ => False
  | .outbox id => OutboxWrite call id old new

def Together (jobId : Uuid) (writes : AList Row) : Prop :=
  writes = ∅ ∨ ∃ job : ProvisioningJobRow, writes.lookup (.job jobId) = some job ∧
    Key.tenant job.tenantId ∈ writes ∧ Key.runtime job.tenantId ∈ writes

def callCommits : Call → AList Row → Prop
  | .complete jobId _ _ _, writes => Together jobId writes
  | _, _ => True

def callResumes : Call → AList Row → Prop
  | .claim _ _, saved => saved = ∅
  | _, _ => True

/-- A claim's answer says what it committed: it hands out a job exactly if it left that job running,
with the token behind the stored hash and for the worker that asked. -/
structure HandsOut (cfg : Config) (rawWorker : String) (answer : Except ApiError Reply)
    (saved : AList Row) : Prop where
  given : ∀ id (row : ProvisioningJobRow), saved.lookup (.job id) = some row →
    row.status = .running → ∃ claim : ProvisioningClaim, answer = .ok (.claim (some claim)) ∧
      claim.job = row
  taken : ∀ claim : ProvisioningClaim, answer = .ok (.claim (some claim)) →
    saved.lookup (.job claim.job.id) = some claim.job ∧ claim.job.status = .running ∧
      claim.job.claimTokenHash = some (cfg.sha256 claim.claimToken) ∧
      ∃ worker, Validation.workerId rawWorker = .ok worker ∧ claim.job.claimedBy = some worker

def callAnswers (cfg : Config) : Call → Except ApiError Reply → Local Row → Prop
  | .claim rawWorker _, answer, l => HandsOut cfg rawWorker answer l.saved
  | _, _, _ => True

def rowOk : (key : Key) → Row key → Prop
  | .job id, row => JobOk id row
  | .tenant _, _ | .runtime _, _ | .billing _, _ | .guarantee _, _ | .parkSnapshot _, _
  | .outreachAlert _, _ | .channel _, _ | .outbox _, _ | .slug _, _ | .account _, _ | .audit _, _
  | .advisory _, _ => True

def protocol (cfg : Config) : Protocol Row Call (Except ApiError Reply) where
  inv := rowOk
  write := callWrites cfg
  commit := callCommits
  resume := callResumes
  answer := callAnswers cfg

end ControlPlane
