import ControlPlane.Store.Tenants

/-!
# Provisioning jobs

Every statement is the one of the store, with the row locks it takes and the snapshot it judges rows
by.
-/

namespace ControlPlane.Store

open ReadCommitted.Handler

/-! ### Plans -/

/-- The provider keys that are non-empty strings, if there are any. -/
def providerKeys (keys : Option Json) : Option Json :=
  match keys with
  | some (.obj members) =>
    match members.filter fun member => (member.2.asStr).any (· ≠ "") with
    | [] => none
    | filtered => some (.obj filtered)
  | _ => none

def withProviderKeys (plan : Json) (keys : Option Json) : Json :=
  match providerKeys keys with
  | some filtered => plan.set "providerKeys" filtered
  | none => plan

def uuidJson (id : Uuid) : Json := .str id.hyphenated

def provisioningPlan (tenant : TenantRow) (keys : Option Json) : Json :=
  withProviderKeys
    (.obj [("schema", .num 2), ("mode", .str "workspace_isolated_deployment"),
      ("composeProject", .str ("crowdrelay-" ++ tenant.slug)), ("tenantSlug", .str tenant.slug),
      ("workspaceId", .ofOption uuidJson tenant.workspaceId),
      ("crowdRelayBaseUrl", .ofOption .str tenant.crowdrelayBaseUrl),
      ("signalBaseUrl", .ofOption .str tenant.signalBaseUrl),
      ("defaultCountryCode", .str tenant.defaultCountryCode),
      ("synesthesiaEnabled", .bool tenant.synesthesiaEnabled), ("teamMembers", tenant.teamMembers),
      ("execution",
        .str "requires explicit deploy approval and the narrow provisioner agent")]) keys

/-- The tenant's database and role on the shared cluster. -/
def placementDatabaseName (slug : String) (tenantId : Uuid) : String :=
  let underscored := Text.replace '-' '_' slug
  let candidate := "t_" ++ underscored
  if candidate.utf8ByteSize ≤ 63 then candidate
  else "t_" ++ Text.sliceTo underscored 52 ++ "_" ++ Text.sliceTo tenantId.simple 8

structure TenantDeploymentSpec where
  desiredVersion : String
  apiImage : String
  workerImage : String
  providerKeys : Option Json

def deploymentPlan (cfg : Config) (tenant : TenantRow) (deployment : TenantDeploymentSpec) :
    Except ApiError Json := do
  let crowdrelayBaseUrl ←
    tenant.crowdrelayBaseUrl.elim
      (.error (.invalidInput "crowdrelayBaseUrl is required before deployment")) .ok
  let stored ←
    tenant.regionalProfile.elim
      (.error (.invalidInput "regionalProfile must be explicitly classified before deployment")) .ok
  let regionalProfile ←
    (RegionalProfile.ofJson stored).elim
      (.error (.conflict "stored regionalProfile is invalid")) .ok
  let base := Json.obj [("schema", .num 5), ("mode", .str "local_docker_compose"),
    ("placement", .str tenant.placement.asStr),
    ("composeProject", .str ("crowdrelay-" ++ tenant.slug)), ("tenantId", uuidJson tenant.id),
    ("tenantSlug", .str tenant.slug), ("displayName", .str tenant.displayName),
    ("workspaceSlug", .str tenant.slug), ("workspaceId", .ofOption uuidJson tenant.workspaceId),
    ("crowdRelayBaseUrl", .str crowdrelayBaseUrl),
    ("publicSiteBaseUrl", .ofOption .str tenant.signalBaseUrl),
    ("allowedOrigins", .arr (tenant.signalBaseUrl.toList.map .str)),
    ("defaultCountryCode", .str tenant.defaultCountryCode),
    ("regionalProfile", regionalProfile.toJson),
    ("brandingPalette", tenant.brandingPalette.getD .null),
    ("desiredVersion", .str deployment.desiredVersion),
    ("apiImage", .str (deployment.apiImage ++ ":" ++ deployment.desiredVersion)),
    ("workerImage", .str (deployment.workerImage ++ ":" ++ deployment.desiredVersion)),
    ("tenantStatusBefore", .str tenant.status.asStr),
    ("security", .obj [("secrets", .str "generated-and-retained-on-provisioner-host"),
      ("dockerCapability", .str "provisioner-only"), ("browserReceivesSecrets", .bool false)])]
  let placed ←
    match tenant.placement with
    | .dedicated => .ok base
    | .sharedPg =>
      match tenant.placementCluster, tenant.placementDatabase with
      | some cluster, some database =>
        .ok (base.set "sharedPg" (.obj [("host", .str cluster),
          ("network", .str cfg.sharedPgNetwork), ("database", .str database)]))
      | _, _ => .error (.conflict "shared_pg tenant is missing placement cluster or database")
  let crewed :=
    match tenant.teamMembers with
    | .arr (member :: members) =>
      (placed.set "teamMembers" (.arr (member :: members))).set "schema" (.num 5)
    | _ => placed
  pure (withProviderKeys crewed deployment.providerKeys)

/-! ### Finding jobs -/

def jobsOf (db : AList Row) : List ProvisioningJobRow :=
  db.keys.filterMap fun key =>
    match key with
    | .job id => db.lookup (.job id)
    | _ => none

def jobWhere (p : ProvisioningJobRow → Bool) : (key : Key) → Row key → Bool
  | .job _, row => p row
  | .tenant _, _ | .runtime _, _ | .billing _, _ | .guarantee _, _ | .parkSnapshot _, _
  | .outreachAlert _, _ | .channel _, _ | .outbox _, _ | .slug _, _ | .account _, _ | .audit _, _
  | .advisory _, _ => false

def setJob (f : ProvisioningJobRow → ProvisioningJobRow) : (key : Key) → Row key → Row key
  | .job _, row => f row
  | .tenant _, row => row
  | .runtime _, row => row
  | .billing _, row => row
  | .guarantee _, row => row
  | .parkSnapshot _, row => row
  | .outreachAlert _, row => row
  | .channel _, row => row
  | .outbox _, row => row
  | .slug _, row => row
  | .account _, row => row
  | .audit _, row => row
  | .advisory _, row => row

def asJob : (Σ key, Row key) → Option ProvisioningJobRow
  | ⟨.job _, row⟩ => some row
  | _ => none

def jobKeys (jobs : List ProvisioningJobRow) : List Key := jobs.map fun job => .job job.id

/-- `created_at ASC, id ASC`. -/
def older (a b : ProvisioningJobRow) : Prop :=
  a.createdAt < b.createdAt ∨ a.createdAt = b.createdAt ∧ a.id ≤ b.id

instance : DecidableRel older := fun a b => by unfold older; infer_instance

def isActiveOf (tenantId : Uuid) (job : ProvisioningJobRow) : Bool :=
  job.tenantId = tenantId && job.status.isActive

/-- `ORDER BY created_at DESC, id DESC LIMIT 1 FOR UPDATE`. -/
def activeProvisioningJob (tenantId : Uuid) : Handler (Option ProvisioningJobRow) := do
  let seen ← snapshot
  let candidates := (((jobsOf seen).filter (isActiveOf tenantId)).insertionSort older).reverse
  let found ← firstLocked (jobWhere (isActiveOf tenantId)) (jobKeys candidates)
  pure (found.bind asJob)

def newJob (id tenantId : Uuid) (status : JobStatus) (desiredVersion : Option String) (plan : Json)
    (actor : String) (now : Instant) : ProvisioningJobRow where
  id := id
  tenantId := tenantId
  status := status
  desiredVersion := desiredVersion
  plan := plan
  createdBy := actor
  attemptCount := 0
  claimedBy := none
  claimTokenHash := none
  leaseExpiresAt := none
  startedAt := none
  finishedAt := none
  result := none
  errorCode := none
  errorDetail := none
  createdAt := now
  updatedAt := now

def defaultVersion (version : Option String) : String := version.getD "the default version"

def rowNotFound : ApiError := .database .rowNotFound

/-! ### Planning and approval -/

def planProvisioning (cfg : Config) (slug : String) (desiredVersion : Option String)
    (keys : Option Json) (actor : String) : Handler (ProvisioningJobRow × Bool) := do
  let tenant ← tenantBySlug cfg slug
  let jobId ← fresh
  inTransaction do
    let now ← sqlNow
    let row := newJob jobId tenant.tenant.id .planned desiredVersion
      (provisioningPlan tenant.tenant keys) actor now
    let inserted ← insert (Key.job jobId) fun _ => row
    if inserted then pure (row, true)
    else do
      let active ← activeProvisioningJob tenant.tenant.id
      let existing ← okOr active
        (.conflict "active provisioning plan changed concurrently; retry")
      ensure (existing.desiredVersion = desiredVersion)
        (.conflict ("active provisioning plan already targets " ++
          defaultVersion existing.desiredVersion ++
          "; finish or cancel it before requesting " ++ defaultVersion desiredVersion))
      pure (existing, false)

def approvePlan (plan : Json) (desiredVersion : String) (now : Instant) (row : ProvisioningJobRow) :
    ProvisioningJobRow :=
  { row with
    status := .approved, plan := plan, desiredVersion := some desiredVersion, updatedAt := now }

def requestDeployment (cfg : Config) (slug desiredVersion apiImage workerImage actor : String) :
    Handler (ProvisioningJobRow × Bool) := do
  let tenant ← tenantBySlug cfg slug
  ensure (tenant.tenant.canProvision = true)
    (.conflict "tenant lifecycle is externally owned and is not provisioned by the tenant agent")
  ensure (tenant.tenant.status ≠ .suspended)
    (.conflict "resume the tenant before requesting a deployment")
  ensure (tenant.tenant.status ≠ .parked)
    (.conflict "unpark the tenant before requesting a deployment")
  let jobId ← fresh
  let plan ← require (deploymentPlan cfg tenant.tenant
    { desiredVersion := desiredVersion, apiImage := apiImage, workerImage := workerImage,
      providerKeys := none })
  inTransaction do
    let now ← sqlNow
    let row := newJob jobId tenant.tenant.id .approved (some desiredVersion) plan actor now
    let inserted ← insert (Key.job jobId) fun _ => row
    if inserted then pure (row, true)
    else do
      let active ← activeProvisioningJob tenant.tenant.id
      let existing ← okOr active
        (.conflict "active provisioning job changed concurrently; retry")
      ensure (existing.desiredVersion = some desiredVersion)
        (.conflict ("active provisioning job already targets " ++
          defaultVersion existing.desiredVersion ++
          "; finish or cancel it before requesting " ++ desiredVersion))
      if existing.status = .planned then do
        let updated ← updateRow (Key.job existing.id)
          (fun row : ProvisioningJobRow => row.status = .planned)
          fun _ row => approvePlan plan desiredVersion now row
        let approved ← okOr updated rowNotFound
        pure (approved, false)
      else pure (existing, false)

def cancelled (now : Instant) (row : ProvisioningJobRow) : ProvisioningJobRow :=
  { row with
    status := .cancelled, finishedAt := some now, claimTokenHash := none, leaseExpiresAt := none,
    updatedAt := now }

def cancelProvisioning (cfg : Config) (slug : String) : Handler ProvisioningJobRow := do
  let tenant ← tenantBySlug cfg slug
  inTransaction do
    let now ← sqlNow
    let active ← activeProvisioningJob tenant.tenant.id
    let running ← okOr active .notFound
    ensure (running.status ≠ .running)
      (.conflict ("a running deployment cannot be cancelled from the UI; " ++
        "wait for its lease/result"))
    let updated ← updateRow (Key.job running.id)
      (fun row : ProvisioningJobRow => row.status = .planned ∨ row.status = .approved)
      fun _ row => cancelled now row
    okOr updated rowNotFound

/-! ### Claims and leases -/

def leaseLength (leaseSeconds : Int) : Int := seconds (max 60 (min leaseSeconds 3600))

/-- `status='running' AND lease_expires_at <= now()`. -/
def leaseLapsed (now : Instant) (row : ProvisioningJobRow) : Bool :=
  row.status = .running && row.leaseExpiresAt.any (· ≤ now)

def isExhausted (now : Instant) (row : ProvisioningJobRow) : Bool :=
  leaseLapsed now row && 3 ≤ row.attemptCount

def exhausted (now : Instant) (row : ProvisioningJobRow) : ProvisioningJobRow :=
  { row with
    status := .failed, finishedAt := some now, claimTokenHash := none, leaseExpiresAt := none,
    errorCode := some "lease_exhausted", errorDetail := some "provisioner lease expired repeatedly",
    updatedAt := now }

def isReclaimable (now : Instant) (row : ProvisioningJobRow) : Bool :=
  leaseLapsed now row && row.attemptCount < 3

def reapproved (now : Instant) (row : ProvisioningJobRow) : ProvisioningJobRow :=
  { row with
    status := .approved, claimedBy := none, claimTokenHash := none, leaseExpiresAt := none,
    errorCode := none, errorDetail := none, updatedAt := now }

/-- The plans a provisioner in the given region may carry out. -/
def servesPlan (dataRegion : Option String) (plan : Json) : Bool :=
  plan.textAt "schema" = some "3" ||
    ((plan.textAt "schema" = some "4" || plan.textAt "schema" = some "5") && dataRegion.isSome &&
      plan.textAtPath "regionalProfile" "dataRegion" = dataRegion)

def isClaimable (dataRegion : Option String) (row : ProvisioningJobRow) : Bool :=
  row.status = .approved && servesPlan dataRegion row.plan

def claimed (workerId : String) (hash : List UInt8) (lease now : Instant)
    (row : ProvisioningJobRow) : ProvisioningJobRow :=
  { row with
    status := .running, claimedBy := some workerId, claimTokenHash := some hash,
    leaseExpiresAt := some lease, attemptCount := row.attemptCount + 1,
    startedAt := some (row.startedAt.getD now), finishedAt := none, result := none,
    errorCode := none, errorDetail := none, updatedAt := now }

def claimProvisioning (cfg : Config) (workerId : String) (dataRegion : Option String)
    (leaseSeconds : Int) : Handler (Option ProvisioningClaim) := do
  let utc ← utcNow
  let leaseExpiresAt := utc + leaseLength leaseSeconds
  inTransaction do
    let now ← sqlNow
    updateWhere (jobWhere (isExhausted now)) (setJob (exhausted now))
    updateWhere (jobWhere (isReclaimable now)) (setJob (reapproved now))
    let seen ← snapshot
    let candidates := ((jobsOf seen).filter (isClaimable dataRegion)).insertionSort older
    let found ← firstUnlocked (jobWhere (isClaimable dataRegion)) (jobKeys candidates)
    match found.bind asJob with
    | none => pure none
    | some candidate => do
      let id ← fresh
      let claimToken := Uuid.simple id
      let updated ← updateRow (Key.job candidate.id)
        (fun row : ProvisioningJobRow => row.status = .approved)
        fun _ row => claimed workerId (cfg.sha256 claimToken) leaseExpiresAt now row
      let job ← okOr updated rowNotFound
      pure (some { job := job, claimToken := claimToken })

def claimInactive : ApiError := .conflict "provisioning claim is not active for this worker"

/-- The row, if the caller holds its claim at this moment. -/
def verifyProvisioningClaim (cfg : Config) (jobId : Uuid) (workerId claimToken : String) :
    Handler ProvisioningJobRow := do
  let found ← lock (Key.job jobId)
  let row : ProvisioningJobRow ← okOr found .notFound
  ensure (row.status = .running ∧ row.claimedBy = some workerId) claimInactive
  let deadline ← okOr row.leaseExpiresAt claimInactive
  let now ← utcNow
  ensure (now < deadline) claimInactive
  let supplied := cfg.sha256 claimToken
  let stored ← okOr row.claimTokenHash (.conflict "provisioning claim token is unavailable")
  ensure (stored.length = supplied.length ∧ supplied = stored) .unauthorized
  pure row

def isRunning (row : ProvisioningJobRow) : Bool := row.status = .running

def renewed (lease now : Instant) (row : ProvisioningJobRow) : ProvisioningJobRow :=
  { row with leaseExpiresAt := some lease, updatedAt := now }

def renewProvisioningLease (cfg : Config) (jobId : Uuid) (workerId claimToken : String)
    (leaseSeconds : Int) : Handler ProvisioningJobRow :=
  inTransaction do
    let sqlTime ← sqlNow
    let _ ← verifyProvisioningClaim cfg jobId workerId claimToken
    let now ← utcNow
    let updated ← updateRow (Key.job jobId) isRunning
      fun _ row => renewed (now + leaseLength leaseSeconds) sqlTime row
    okOr updated rowNotFound

/-! ### Outcomes -/

def provisioningSuccessMatches (job : ProvisioningJobRow) (workerId : String)
    (completion : ProvisioningCompletion) : Bool :=
  match job.result with
  | none => false
  | some result =>
    result.apiPort = some completion.apiPort && result.workspaceId = some completion.workspaceId &&
      result.schemaVersion = some completion.schemaVersion &&
      result.deployedSha = some completion.deployedSha &&
      result.provisionerWorkerId = some workerId

def notRunning (row : ProvisioningJobRow) : ApiError :=
  .conflict ("provisioning job is already terminal or inactive (" ++ row.status.asStr ++ ")")

def succeededDifferently : ApiError :=
  .conflict "provisioning job already succeeded with a different result"

def failedDifferently : ApiError :=
  .conflict "provisioning job already failed with a different terminal result"

def localApiUrl (slug : String) : String := "http://" ++ slug ++ "-api:8080"

def completionResult (slug workerId : String) (completion : ProvisioningCompletion)
    (completedAt : Instant) : JobResult where
  apiPort := some completion.apiPort
  localApiUrl := some (localApiUrl slug)
  workspaceId := some completion.workspaceId
  schemaVersion := some completion.schemaVersion
  deployedSha := some completion.deployedSha
  provisionerWorkerId := some workerId
  completedAt := some completedAt

def succeeded (result : JobResult) (now : Instant) (row : ProvisioningJobRow) : ProvisioningJobRow :=
  { row with
    status := .succeeded, result := some result, finishedAt := some now, claimTokenHash := none,
    leaseExpiresAt := none, errorCode := none, errorDetail := none, updatedAt := now }

/-- The operator's decision to suspend or park outlives the deployment. -/
def deployed (workspaceId : Uuid) (now : Instant) (row : TenantRow) : TenantRow :=
  { row with
    status := if row.status = .suspended ∨ row.status = .parked then row.status else .active
    workspaceId := some workspaceId
    updatedAt := now }

def unobserved (tenantId : Uuid) (completion : ProvisioningCompletion) : RuntimeStatusRow where
  tenantId := tenantId
  apiHealthy := none
  workerHealthy := none
  schemaVersion := some completion.schemaVersion
  deployedSha := some completion.deployedSha
  outboxPending := none
  queueLag := none
  awaitingApproval := none
  northStarFans := none
  lastHeartbeatAt := none
  checkedAt := none

/-- Deployment identity is recorded and every observation is unknown again. -/
def redeployed (completion : ProvisioningCompletion) (row : RuntimeStatusRow) : RuntimeStatusRow :=
  { row with
    apiHealthy := none, workerHealthy := none, outboxPending := none, queueLag := none,
    awaitingApproval := none, northStarFans := none,
    schemaVersion := some completion.schemaVersion, deployedSha := some completion.deployedSha }

def workspaceTaken : ApiError → ApiError
  | .database (.constraint .unique) =>
    .conflict "reported workspace is already mapped to another tenant"
  | e => e

def completeProvisioning (cfg : Config) (jobId : Uuid) (workerId claimToken : String)
    (completion : ProvisioningCompletion) : Handler ProvisioningJobRow :=
  inTransaction do
    let now ← sqlNow
    let found ← lock (Key.job jobId)
    let existing : ProvisioningJobRow ← okOr found .notFound
    if existing.status = .succeeded then do
      ensure (provisioningSuccessMatches existing workerId completion = true) succeededDifferently
      pure existing
    else do
      ensure (existing.status = .running) (notRunning existing)
      let claim ← verifyProvisioningClaim cfg jobId workerId claimToken
      let expectedSha ← okOr (claim.desiredVersion.bind (Text.strip "sha-"))
        (.conflict "running provisioning job has no immutable image SHA")
      ensure (expectedSha = completion.deployedSha)
        (.conflict ("deployed SHA " ++ completion.deployedSha ++ " does not match planned SHA " ++
          expectedSha))
      let seen ← snapshot
      let tenant : TenantRow ← okOr (seen.lookup (.tenant existing.tenantId)) rowNotFound
      let completedAt ← utcNow
      let result := completionResult tenant.slug workerId completion completedAt
      let updated ← updateRow (Key.job jobId) isRunning fun _ row => succeeded result now row
      let job ← okOr updated rowNotFound
      let _ ← mapErr workspaceTaken
        (updateRow (Key.tenant job.tenantId) (fun _ => true)
          fun _ row => deployed completion.workspaceId now row)
      let _ ← upsert (Key.runtime job.tenantId) (unobserved job.tenantId completion)
        (redeployed completion)
      pure job

def failed (errorCode : String) (errorDetail : Option String) (now : Instant)
    (row : ProvisioningJobRow) : ProvisioningJobRow :=
  { row with
    status := .failed, finishedAt := some now, claimTokenHash := none, leaseExpiresAt := none,
    errorCode := some errorCode, errorDetail := errorDetail, updatedAt := now }

def failureMatches (job : ProvisioningJobRow) (workerId errorCode : String)
    (errorDetail : Option String) : Bool :=
  job.claimedBy = some workerId && job.errorCode = some errorCode && job.errorDetail = errorDetail

def failurePayload (job : ProvisioningJobRow) (errorCode : String) (errorDetail : Option String) :
    Json :=
  .obj [("event", .str "provisioning.failed"), ("errorCode", .str errorCode),
    ("errorDetail", .ofOption .str errorDetail), ("attemptCount", .num job.attemptCount),
    ("desiredVersion", .ofOption .str job.desiredVersion)]

def failProvisioning (cfg : Config) (jobId : Uuid) (workerId claimToken errorCode : String)
    (errorDetail : Option String) : Handler ProvisioningJobRow :=
  inTransaction do
    let now ← sqlNow
    let found ← lock (Key.job jobId)
    let existing : ProvisioningJobRow ← okOr found .notFound
    if existing.status = .failed then do
      ensure (failureMatches existing workerId errorCode errorDetail = true) failedDifferently
      pure existing
    else do
      ensure (existing.status = .running) (notRunning existing)
      let claim ← verifyProvisioningClaim cfg jobId workerId claimToken
      let updated ← updateRow (Key.job jobId) isRunning fun _ row => failed errorCode errorDetail now row
      let job ← okOr updated rowNotFound
      enqueueEventTx claim.tenantId .provisioningFailed (failurePayload job errorCode errorDetail)
      pure job

/-- `finished_at DESC NULLS LAST, created_at DESC`. -/
def finishedLater (a b : ProvisioningJobRow) : Bool :=
  match a.finishedAt, b.finishedAt with
  | some x, some y => y < x || x = y && b.createdAt ≤ a.createdAt
  | some _, none => true
  | none, some _ => false
  | none, none => b.createdAt ≤ a.createdAt

def latestManagementUrl (tenantId : Uuid) : Handler (Option String) := do
  let seen ← snapshot
  let finished := (jobsOf seen).filter fun job =>
    job.tenantId = tenantId && job.status = .succeeded &&
      (job.result.bind (·.localApiUrl)).isSome
  let latest := finished.insertionSort fun a b => finishedLater a b = true
  pure (latest.head?.bind fun job => job.result.bind (·.localApiUrl))

end ControlPlane.Store
