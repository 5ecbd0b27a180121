import ControlPlane.Store.Tenants

/-!
# Runtime reports and the guarantee

A report merges into the runtime row unless its heartbeat is older. The first fan level freezes the
guarantee's baseline; payment re-anchors it.
-/

namespace ControlPlane.Store

open ReadCommitted.Handler

def reportedRow (tenantId : Uuid) (input : RuntimeReportRequest) (now : Instant) :
    RuntimeStatusRow where
  tenantId := tenantId
  apiHealthy := input.apiHealthy
  workerHealthy := input.workerHealthy
  schemaVersion := input.schemaVersion
  deployedSha := input.deployedSha
  outboxPending := input.outboxPending
  queueLag := input.queueLag
  awaitingApproval := input.awaitingApproval
  northStarFans := input.northStarFans
  lastHeartbeatAt := input.lastHeartbeatAt
  checkedAt := some now

def notOlder (reported stored : Option Instant) : Bool :=
  match reported, stored with
  | some reported, some stored => stored ≤ reported
  | _, _ => true

/-- `ON CONFLICT DO UPDATE`: a report merges field by field unless it is older than the row. -/
def mergeReport (input : RuntimeReportRequest) (now : Instant) (row : RuntimeStatusRow) :
    RuntimeStatusRow :=
  if notOlder input.lastHeartbeatAt row.lastHeartbeatAt then
    { tenantId := row.tenantId
      apiHealthy := input.apiHealthy.or row.apiHealthy
      workerHealthy := input.workerHealthy.or row.workerHealthy
      schemaVersion := input.schemaVersion.or row.schemaVersion
      deployedSha := input.deployedSha.or row.deployedSha
      outboxPending := input.outboxPending.or row.outboxPending
      queueLag := input.queueLag.or row.queueLag
      awaitingApproval := input.awaitingApproval.or row.awaitingApproval
      northStarFans := input.northStarFans.or row.northStarFans
      lastHeartbeatAt := input.lastHeartbeatAt.or row.lastHeartbeatAt
      checkedAt := some now }
  else { row with checkedAt := some now }

def guaranteeMetric : String := "activated_fans_30d"

/-- The baseline frozen at the first measurement. A subscription already recorded gives the deadline
its start. -/
def firstGuarantee (tenantId : Uuid) (fans : Int) (heartbeat : Option Instant) (now : Instant)
    (seen : AList Row) : TenantGuaranteeRow where
  tenantId := tenantId
  metricKey := guaranteeMetric
  baselineValue := fans
  baselineCapturedAt := heartbeat.getD now
  deadline :=
    ((billingRow seen tenantId).map (·.subscriptionStartedAt)).getD (heartbeat.getD now) + days 90
  anchoredStartedAt := none

def healthEvent (firstReport : Bool) : RuntimeHealth → Option NotifierEvent
  | .degraded => some .runtimeDegraded
  | .stale => some .runtimeStale
  | .healthy => if firstReport then none else some .runtimeRecovered
  | .unknown => none

def healthPayload (event : NotifierEvent) (previous current : RuntimeHealth)
    (runtime : RuntimeStatusRow) : Json :=
  .obj [("event", .str event.asStr), ("previousHealth", .str previous.asStr),
    ("health", .str current.asStr), ("deployedSha", .ofOption .str runtime.deployedSha),
    ("outboxPending", .ofOption .num runtime.outboxPending)]

def mergeAlerts (input : RuntimeReportRequest) (now : Instant) (row : OutreachAlertRow) :
    OutreachAlertRow :=
  { row with
    redditHalted := input.redditHalted.or row.redditHalted
    repliesWaiting := input.repliesWaiting.or row.repliesWaiting
    cutCandidateLanes := input.cutCandidateLanes.or row.cutCandidateLanes
    updatedAt := now }

/-- Notify of each outreach gauge that rose against its last reported value. -/
def raiseOutreachAlerts (tenantId : Uuid) (input : RuntimeReportRequest) (now : Instant) :
    Handler Unit := do
  if input.redditHalted = none ∧ input.repliesWaiting = none ∧ input.cutCandidateLanes = none then
    pure ()
  else do
    let previous : Option OutreachAlertRow ← lock (Key.outreachAlert tenantId)
    let _ ← upsert (Key.outreachAlert tenantId)
      { tenantId := tenantId, redditHalted := input.redditHalted,
        repliesWaiting := input.repliesWaiting, cutCandidateLanes := input.cutCandidateLanes,
        updatedAt := now }
      (mergeAlerts input now)
    let previousReplies := (previous.bind (·.repliesWaiting)).getD 0
    let previousLanes := (previous.bind (·.cutCandidateLanes)).getD 0
    whenever (input.redditHalted = some true ∧ previous.bind (·.redditHalted) ≠ some true)
      (enqueueEventTx tenantId .outreachRedditHalted
        (.obj [("event", .str "outreach.reddit_halted"), ("redditHalted", .bool true)]))
    forSome input.repliesWaiting fun waiting =>
      whenever (previousReplies < waiting)
        (enqueueEventTx tenantId .outreachRepliesWaiting
          (.obj [("event", .str "outreach.replies_waiting"), ("repliesWaiting", .num waiting),
            ("previousRepliesWaiting", .num previousReplies)]))
    forSome input.cutCandidateLanes fun lanes =>
      whenever (previousLanes < lanes)
        (enqueueEventTx tenantId .outreachLanesCut
          (.obj [("event", .str "outreach.lanes_cut"), ("cutCandidateLanes", .num lanes),
            ("previousCutCandidateLanes", .num previousLanes)]))

def reportRuntime (cfg : Config) (slug : String) (input : RuntimeReportRequest) :
    Handler TenantSummary := do
  let tenant ← tenantBySlug cfg slug
  let tenantId := tenant.tenant.id
  let previousHealth := tenant.runtimeHealth
  let firstReport := tenant.runtime.isNone
  let previousAwaiting := (tenant.runtime.bind (·.awaitingApproval)).getD 0
  inTransaction do
    let now ← sqlNow
    let runtime ← upsert (Key.runtime tenantId) (reportedRow tenantId input now)
      (mergeReport input now)
    forSome input.northStarFans fun fans => do
      let _ ← insert (Key.guarantee tenantId)
        (firstGuarantee tenantId fans input.lastHeartbeatAt now)
    let utc ← utcNow
    let currentHealth := RuntimeHealth.classify (some runtime) utc cfg.runtimeStaleAfterSeconds
    whenever (previousHealth ≠ currentHealth)
      (forSome (healthEvent firstReport currentHealth) fun event =>
        enqueueEventTx tenantId event (healthPayload event previousHealth currentHealth runtime))
    raiseOutreachAlerts tenantId input now
    let currentAwaiting := runtime.awaitingApproval.getD 0
    whenever (previousAwaiting < currentAwaiting)
      (enqueueEventTx tenantId .approvalsPending
        (.obj [("event", .str "approvals.pending"), ("awaitingApproval", .num currentAwaiting),
          ("previousAwaitingApproval", .num previousAwaiting)]))
    pure { tenant with runtime := some runtime, runtimeHealth := currentHealth }

/-- The verdict as it is read: the frozen baseline against the latest reported level. -/
def guaranteeView (guarantee : Option TenantGuaranteeRow) (runtime : Option RuntimeStatusRow)
    (now : Instant) : GuaranteeView :=
  let current := runtime.bind (·.northStarFans)
  let currentAt := runtime.bind (·.lastHeartbeatAt)
  match guarantee with
  | none =>
    { state := .unmeasured
      metricKey := guaranteeMetric
      baselineValue := none
      baselineCapturedAt := none
      deadline := none
      currentValue := current
      currentCapturedAt := currentAt
      daysRemaining := none }
  | some row =>
    let elapsed := decide (row.deadline ≤ now)
    { state := .derive elapsed current row.baselineValue
      metricKey := row.metricKey
      baselineValue := some row.baselineValue
      baselineCapturedAt := some row.baselineCapturedAt
      deadline := some row.deadline
      currentValue := current
      currentCapturedAt := currentAt
      daysRemaining := if elapsed then none else some ((row.deadline - now).tdiv (days 1)) }

def tenantGuarantee (cfg : Config) (slug : String) : Handler GuaranteeView := do
  let tenant ← tenantBySlug cfg slug
  let seen ← snapshot
  let guarantee : Option TenantGuaranteeRow := seen.lookup (.guarantee tenant.tenant.id)
  let now ← utcNow
  pure (guaranteeView guarantee tenant.runtime now)

def anchored (startedAt : Instant) (fans : Option Int) (row : TenantGuaranteeRow) :
    TenantGuaranteeRow :=
  { row with
    baselineValue := fans.getD row.baselineValue
    baselineCapturedAt := startedAt
    deadline := startedAt + days 90
    anchoredStartedAt := some startedAt }

/-- Re-anchor the guarantee to the recorded start, unless it is anchored there already. The fan level
is the one the statement's snapshot shows. -/
def anchorGuaranteeToSubscription (tenantId : Uuid) (startedAt : Instant) : Handler Bool :=
  inTransaction do
    let updated ← updateRow (Key.guarantee tenantId)
      (fun row : TenantGuaranteeRow => row.anchoredStartedAt ≠ some startedAt)
      fun seen row => anchored startedAt ((runtimeRow seen tenantId).bind (·.northStarFans)) row
    pure updated.isSome

end ControlPlane.Store
