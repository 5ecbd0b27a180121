import ControlPlane.Store.Provisioning
import ControlPlane.Validation

/-!
# Creating a tenant

One transaction makes a tenant, its first operator and its first deployment. Tenants that share a
cluster are counted under an advisory lock.
-/

namespace ControlPlane

structure InitialOperator where
  username : String
  passwordHash : String
deriving DecidableEq, Repr

structure TenantCreation where
  slug : String
  displayName : String
  workspaceId : Option Uuid
  crowdrelayBaseUrl : Option String
  signalBaseUrl : Option String
  regionalProfile : RegionalProfile
  palette : Option BrandingPalette
  synesthesiaEnabled : Bool
  areaEnabled : Bool
  archetype : Option Archetype
  placement : Option Placement
  teamMembers : Option (List TeamMemberRequest)
  deployment : Option Store.TenantDeploymentSpec
  initialOperator : Option InitialOperator
  actor : String

/-- An absent placement derives from the archetype. -/
def TenantCreation.place (input : TenantCreation) : Placement :=
  input.placement.getD (Validation.defaultPlacement (input.archetype.getD .band))

namespace Store

open ReadCommitted.Handler

/-- `pg_advisory_xact_lock`: waits for the key, which is then held to the end of the transaction. -/
def advisoryXactLock (key : Int) : Handler Unit := do
  let _ ← upsert (Key.advisory key) () id

def sharesCluster (cluster : String) (tenant : TenantRow) : Bool :=
  tenant.placement = .sharedPg && tenant.placementCluster = some cluster

/-- `SELECT COUNT(*) ... WHERE placement = 'shared_pg' AND placement_cluster = $1`. -/
def sharedPgTenants (cluster : String) (db : AList Row) : Nat :=
  (tenantsOf db).countP (sharesCluster cluster)

def atCapacity (cluster : String) (used : Nat) : ApiError :=
  .conflict ("shared placement cluster " ++ cluster ++ " is at capacity (" ++ toString used ++
    " tenants)")

/-- Refuse rather than degrade: a cluster at capacity surfaces as an error. -/
def ensureCapacity (cfg : Config) : Handler Unit := do
  advisoryXactLock (cfg.hashtext cfg.sharedPgCluster)
  let seen ← snapshot
  let used := sharedPgTenants cfg.sharedPgCluster seen
  ensure (¬ cfg.sharedPgMaxTenants ≤ used) (atCapacity cfg.sharedPgCluster used)

def createdTenant (cfg : Config) (input : TenantCreation) (id : Uuid) (now : Instant) :
    TenantRow where
  id := id
  slug := input.slug
  displayName := input.displayName
  status := .provisioning
  workspaceId := input.workspaceId
  crowdrelayBaseUrl := input.crowdrelayBaseUrl
  signalBaseUrl := input.signalBaseUrl
  defaultCountryCode := input.regionalProfile.countryCode
  regionalProfile := some input.regionalProfile.toJson
  brandingPalette := input.palette.map BrandingPalette.toJson
  synesthesiaEnabled := input.synesthesiaEnabled
  areaEnabled := input.areaEnabled
  canSuspend := true
  canProvision := true
  placement := input.place
  placementCluster := if input.place = .sharedPg then some cfg.sharedPgCluster else none
  placementDatabase :=
    if input.place = .sharedPg then some (placementDatabaseName input.slug id) else none
  teamMembers := .arr ((input.teamMembers.getD []).map TeamMemberRequest.toJson)
  updatedAt := now

/-- The `INSERT`, refused if the slug or the workspace is taken. -/
def insertTenant (tenant : TenantRow) : Handler Unit := do
  let taken : ApiError := .conflict "tenant slug or workspace is already registered"
  let reserved ← insert (Key.slug tenant.slug) fun _ => tenant.id
  ensure (reserved = true) taken
  let inserted ← insert (Key.tenant tenant.id) fun _ => tenant
  ensure (inserted = true) taken

def createOperatorAccount (tenantId : Uuid) (operator : InitialOperator) : Handler Unit := do
  let id ← fresh
  let inserted ← insert (Key.account operator.username) fun _ =>
    { id := id, username := operator.username, passwordHash := operator.passwordHash,
      role := .tenantOperator, tenantId := some tenantId, active := true }
  ensure (inserted = true) (.conflict "operator username is already taken")

def deployWithTenant (cfg : Config) (tenant : TenantRow) (deployment : TenantDeploymentSpec)
    (actor : String) (now : Instant) : Handler Unit := do
  let plan ← require (deploymentPlan cfg tenant deployment)
  let jobId ← fresh
  let inserted ← insert (Key.job jobId) fun _ =>
    newJob jobId tenant.id .approved (some deployment.desiredVersion) plan actor now
  ensure (inserted = true) (.database (.constraint .unique))

def createTenant (cfg : Config) (input : TenantCreation) : Handler TenantSummary := do
  let seen ← snapshot
  ensure ((tenantRow seen input.slug).isNone = true)
    (.conflict ("tenant " ++ input.slug ++ " already exists"))
  let id ← fresh
  inTransaction do
    let now ← sqlNow
    whenever (input.place = .sharedPg) (ensureCapacity cfg)
    let tenant := createdTenant cfg input id now
    insertTenant tenant
    forSome input.initialOperator (createOperatorAccount id)
    forSome input.deployment fun deployment => deployWithTenant cfg tenant deployment input.actor now
    pure { tenant := tenant, runtime := none, runtimeHealth := .unknown, billing := none,
           enabledNotifierChannels := 0 }

end Store

def creationServer (cfg : Config) :
    ReadCommitted.Server Row Index ManagementRequest (Except ApiError Json) Upstream TenantCreation
      (Except ApiError TenantSummary) where
  schema := schema
  handler input := (Store.createTenant cfg input).run

end ControlPlane
