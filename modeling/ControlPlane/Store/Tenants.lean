import ControlPlane.Schema

/-!
# Tenant rows and notifications

Looking a tenant up, moving its status, and enqueuing notifications. Audit rows are modelled where a
statement reads them back.
-/

namespace ControlPlane

/-- What the server is started with. The digest function is a parameter: the store only compares
digests. -/
structure Config where
  sha256 : String → List UInt8
  runtimeStaleAfterSeconds : Int
  provisionerConfigured : Bool
  provisionerLeaseSeconds : Int
  provisionerDefaultImageTag : Option String
  provisionerApiImage : String
  provisionerWorkerImage : String
  sharedPgCluster : String
  sharedPgNetwork : String
  sharedPgMaxTenants : Int
  /-- PostgreSQL's hash of a text. -/
  hashtext : String → Int
  billingWebhookSecret : Option String

namespace Store

open ReadCommitted.Handler

/-! ### Reading tables -/

def tenantsOf (db : AList Row) : List TenantRow :=
  db.keys.filterMap fun key =>
    match key with
    | .tenant id => db.lookup (.tenant id)
    | _ => none

def channelsOf (db : AList Row) : List NotifierChannelRow :=
  db.keys.filterMap fun key =>
    match key with
    | .channel id => db.lookup (.channel id)
    | _ => none

def tenantRow (db : AList Row) (slug : String) : Option TenantRow :=
  (tenantsOf db).find? fun tenant => tenant.slug = slug

def runtimeRow (db : AList Row) (tenantId : Uuid) : Option RuntimeStatusRow :=
  db.lookup (.runtime tenantId)

def billingRow (db : AList Row) (tenantId : Uuid) : Option TenantBillingRow :=
  db.lookup (.billing tenantId)

def BillingView.ofRow (row : TenantBillingRow) : BillingView where
  state := row.state
  subscriptionStartedAt := row.subscriptionStartedAt
  trialEndsAt := row.trialEndsAt
  currentPeriodEndsAt := row.currentPeriodEndsAt

/-- `TenantSummaryJoinRow::into_summary`. -/
def summary (cfg : Config) (db : AList Row) (now : Instant) (tenant : TenantRow) : TenantSummary :=
  let runtime := runtimeRow db tenant.id
  { tenant := tenant
    runtime := runtime
    runtimeHealth := .classify runtime now cfg.runtimeStaleAfterSeconds
    billing := (billingRow db tenant.id).map BillingView.ofRow
    enabledNotifierChannels :=
      ((channelsOf db).filter fun channel => channel.tenantId = tenant.id ∧ channel.enabled).length }

def tenantBySlug (cfg : Config) (slug : String) : Handler TenantSummary := do
  let seen ← snapshot
  let tenant ← okOr (tenantRow seen slug) .notFound
  let now ← utcNow
  pure (summary cfg seen now tenant)

/-! ### Status -/

/-- `UPDATE control_plane_tenants ... WHERE slug = $1 RETURNING id`. -/
def updateTenant (slug : String) (set : TenantRow → TenantRow) : Handler (Option TenantRow) := do
  let seen ← snapshot
  match tenantRow seen slug with
  | none => pure none
  | some tenant =>
    updateRow (Key.tenant tenant.id) (fun row : TenantRow => row.slug = slug) fun _ row => set row

def setStatus (cfg : Config) (slug : String) (status : TenantStatus) : Handler TenantSummary := do
  let seen ← snapshot
  let canSuspend := (tenantRow seen slug).map (·.canSuspend)
  ensure (¬ (canSuspend = some false ∧ (status = .suspended ∨ status = .parked)))
    (.conflict "tenant lifecycle is externally owned and cannot be changed from Control Plane")
  let _ ← inTransaction do
    let now ← sqlNow
    let updated ← updateTenant slug fun row => { row with status := status, updatedAt := now }
    okOr updated .notFound
  tenantBySlug cfg slug

/-! ### Settings -/

def setProfile (profile : RegionalProfile) (now : Instant) (row : TenantRow) : TenantRow :=
  { row with
    regionalProfile := some profile.toJson
    defaultCountryCode := profile.countryCode
    updatedAt := now }

/-- The region is compared with the one looked up before the transaction. -/
def updateRegionalProfile (cfg : Config) (slug : String) (profile : RegionalProfile) :
    Handler TenantSummary := do
  let tenant ← tenantBySlug cfg slug
  forSome tenant.tenant.regionalProfile fun stored => do
    let current ← okOr (RegionalProfile.ofJson stored)
      (.conflict "stored regional profile is invalid; repair it before editing")
    ensure (current.dataRegion = profile.dataRegion)
      (.conflict ("dataRegion cannot be changed by ordinary tenant editing; " ++
        "use an explicit residency migration"))
  let _ ← inTransaction do
    let now ← sqlNow
    updateRow (Key.tenant tenant.tenant.id) (fun _ => true) fun _ row => setProfile profile now row
  tenantBySlug cfg slug

def setAreaEnabled (slug : String) (enabled : Bool) : Handler Bool := do
  let _ ← inTransaction do
    let now ← sqlNow
    let updated ← updateTenant slug fun row => { row with areaEnabled := enabled, updatedAt := now }
    okOr updated .notFound
  pure enabled

/-! ### Notifications -/

/-- An empty subscription list means all events. -/
def subscribes (tenantId : Uuid) (event : NotifierEvent) (channel : NotifierChannelRow) : Bool :=
  channel.tenantId = tenantId && channel.enabled &&
    (channel.events.isEmpty || channel.events.contains event.asStr)

def enqueued (id : Uuid) (event : NotifierEvent) (payload : Json) (now : Instant)
    (channel : NotifierChannelRow) : OutboxRow where
  id := id
  channelId := channel.id
  event := event
  payload := payload
  status := .pending
  attempts := 0
  nextAttemptAt := now
  lastError := none

/-- The rows of the `INSERT`, which has no `ON CONFLICT`: a taken id refuses the statement. -/
def enqueueEach (event : NotifierEvent) (payload : Json) (now : Instant) :
    List NotifierChannelRow → Handler Unit
  | [] => pure ()
  | channel :: rest => do
    let id ← fresh
    let inserted ← insert (Key.outbox id) fun _ => enqueued id event payload now channel
    ensure (inserted = true) (.database (.constraint .unique))
    enqueueEach event payload now rest

/-- Fan one event out to the subscribed channels, in the caller's transaction. -/
def enqueueEventTx (tenantId : Uuid) (event : NotifierEvent) (payload : Json) : Handler Unit := do
  let now ← sqlNow
  let seen ← snapshot
  enqueueEach event payload now ((channelsOf seen).filter (subscribes tenantId event))

end Store

end ControlPlane
