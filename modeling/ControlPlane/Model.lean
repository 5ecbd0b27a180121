import ControlPlane.Json
import ControlPlane.Text
import ControlPlane.ReadCommitted.Program

/-!
# Rows, states and errors

The row types of the store, the enumerations behind their status columns, and the pure functions
over them.
-/

namespace ControlPlane

export ReadCommitted (Instant)

abbrev Uuid := Nat

/-- `Uuid::simple`: 32 hexadecimal digits. -/
def Uuid.simple (id : Uuid) : String := Text.hex 32 id

/-- `Uuid::to_string`: the digits in groups of 8, 4, 4, 4 and 12. -/
def Uuid.hyphenated (id : Uuid) : String :=
  let digits := id.simple.toList
  let group := fun start length => (digits.drop start).take length
  String.ofList (group 0 8 ++ '-' :: group 8 4 ++ '-' :: group 12 4 ++ '-' :: group 16 4 ++
    '-' :: group 20 12)

def seconds (n : Int) : Int := n * 1000000

def days (n : Int) : Int := seconds (n * 86400)

/-! ### Errors -/

inductive DatabaseError where
  | constraint (e : ReadCommitted.ConstraintError)
  | rowNotFound
deriving DecidableEq, Repr

inductive ApiError where
  | unauthorized
  | forbidden (detail : String)
  | notFound
  | conflict (detail : String)
  | invalidInput (detail : String)
  | unavailable (detail : String)
  | timeout
  | unreachable
  | upstreamError (status : Nat)
  | contractMismatch (reason : String)
  | database (e : DatabaseError)
deriving DecidableEq, Repr

def ApiError.display : ApiError → String
  | .unauthorized => "unauthorized"
  | .forbidden detail => "forbidden: " ++ detail
  | .notFound => "not found"
  | .conflict detail => "conflict: " ++ detail
  | .invalidInput detail => "invalid input: " ++ detail
  | .unavailable detail => "unavailable: " ++ detail
  | .timeout => "upstream timeout"
  | .unreachable => "upstream unreachable"
  | .upstreamError status => "upstream returned HTTP " ++ toString status
  | .contractMismatch reason => "upstream contract mismatch: " ++ reason
  | .database _ => "database error"

instance : ReadCommitted.OfConstraint ApiError where
  ofConstraint e := .database (.constraint e)

/-! ### Tenants -/

inductive TenantStatus where
  | provisioning
  | active
  | suspended
  | parked
deriving DecidableEq, Repr

def TenantStatus.asStr : TenantStatus → String
  | .provisioning => "provisioning"
  | .active => "active"
  | .suspended => "suspended"
  | .parked => "parked"

structure RegionalProfile where
  countryCode : String
  region : String
  locale : String
  timezone : String
  currency : String
  dateFormat : String
  numberFormat : String
  dataRegion : String
deriving DecidableEq, Repr

namespace RegionalProfile

def fields : List String :=
  ["countryCode", "region", "locale", "timezone", "currency", "dateFormat", "numberFormat",
    "dataRegion"]

/-- Strict decoding: every field a string, and no other field. -/
def ofJson (document : Json) : Option RegionalProfile := do
  let .obj members := document | none
  if members.all fun member => member.1 ∈ fields then
    let field := fun name => (Json.lookup name members).bind Json.asStr
    some {
      countryCode := ← field "countryCode"
      region := ← field "region"
      locale := ← field "locale"
      timezone := ← field "timezone"
      currency := ← field "currency"
      dateFormat := ← field "dateFormat"
      numberFormat := ← field "numberFormat"
      dataRegion := ← field "dataRegion" }
  else none

def toJson (profile : RegionalProfile) : Json :=
  .obj [("countryCode", .str profile.countryCode), ("region", .str profile.region),
    ("locale", .str profile.locale), ("timezone", .str profile.timezone),
    ("currency", .str profile.currency), ("dateFormat", .str profile.dateFormat),
    ("numberFormat", .str profile.numberFormat), ("dataRegion", .str profile.dataRegion)]

end RegionalProfile

inductive Placement where
  | dedicated
  | sharedPg
deriving DecidableEq, Repr

def Placement.asStr : Placement → String
  | .dedicated => "dedicated"
  | .sharedPg => "shared_pg"

inductive Archetype where
  | band
  | roster
  | label
  | festivalOrg
deriving DecidableEq, Repr

def Archetype.asStr : Archetype → String
  | .band => "band"
  | .roster => "roster"
  | .label => "label"
  | .festivalOrg => "festival_org"

structure BrandingPalette where
  primary : String
  primaryContrast : String
  accent : String
  surface : String
  surfaceElevated : String
  text : String
  textMuted : String
  success : String
  warning : String
  danger : String
deriving DecidableEq, Repr

namespace BrandingPalette

def members (palette : BrandingPalette) : List (String × String) :=
  [("primary", palette.primary), ("primaryContrast", palette.primaryContrast),
    ("accent", palette.accent), ("surface", palette.surface),
    ("surfaceElevated", palette.surfaceElevated), ("text", palette.text),
    ("textMuted", palette.textMuted), ("success", palette.success), ("warning", palette.warning),
    ("danger", palette.danger)]

def toJson (palette : BrandingPalette) : Json :=
  .obj (palette.members.map fun member => (member.1, .str member.2))

end BrandingPalette

structure TeamMemberRequest where
  key : Option String
  name : String
  email : String
  skills : List String
deriving DecidableEq, Repr

/-- A missing key is not serialized. -/
def TeamMemberRequest.toJson (member : TeamMemberRequest) : Json :=
  .obj ((member.key.toList.map fun key => ("key", .str key)) ++
    [("name", .str member.name), ("email", .str member.email),
      ("skills", .arr (member.skills.map .str))])

structure TenantRow where
  id : Uuid
  slug : String
  displayName : String
  status : TenantStatus
  workspaceId : Option Uuid
  crowdrelayBaseUrl : Option String
  signalBaseUrl : Option String
  defaultCountryCode : String
  regionalProfile : Option Json
  brandingPalette : Option Json
  synesthesiaEnabled : Bool
  areaEnabled : Bool
  canSuspend : Bool
  canProvision : Bool
  placement : Placement
  placementCluster : Option String
  placementDatabase : Option String
  teamMembers : Json
  updatedAt : Instant

/-! ### Provisioning jobs -/

inductive JobStatus where
  | planned
  | approved
  | running
  | succeeded
  | failed
  | cancelled
deriving DecidableEq, Repr

namespace JobStatus

def asStr : JobStatus → String
  | .planned => "planned"
  | .approved => "approved"
  | .running => "running"
  | .succeeded => "succeeded"
  | .failed => "failed"
  | .cancelled => "cancelled"

/-- `status IN ('planned', 'approved', 'running')`, as in the partial unique index. -/
def isActive : JobStatus → Bool
  | .planned | .approved | .running => true
  | .succeeded | .failed | .cancelled => false

end JobStatus

/-- The result document of a job. A completion writes every member; the registration of an external
tenant writes only the address. -/
structure JobResult where
  apiPort : Option Nat
  localApiUrl : Option String
  workspaceId : Option Uuid
  schemaVersion : Option Int
  deployedSha : Option String
  provisionerWorkerId : Option String
  completedAt : Option Instant
deriving DecidableEq, Repr

structure ProvisioningJobRow where
  id : Uuid
  tenantId : Uuid
  status : JobStatus
  desiredVersion : Option String
  plan : Json
  createdBy : String
  attemptCount : Nat
  claimedBy : Option String
  claimTokenHash : Option (List UInt8)
  leaseExpiresAt : Option Instant
  startedAt : Option Instant
  finishedAt : Option Instant
  result : Option JobResult
  errorCode : Option String
  errorDetail : Option String
  createdAt : Instant
  updatedAt : Instant

structure ProvisioningClaim where
  job : ProvisioningJobRow
  claimToken : String

structure ProvisioningCompletion where
  apiPort : Nat
  workspaceId : Uuid
  schemaVersion : Int
  deployedSha : String
deriving DecidableEq, Repr

/-! ### Runtime telemetry -/

structure RuntimeStatusRow where
  tenantId : Uuid
  apiHealthy : Option Bool
  workerHealthy : Option Bool
  schemaVersion : Option Int
  deployedSha : Option String
  outboxPending : Option Int
  queueLag : Option Int
  awaitingApproval : Option Int
  northStarFans : Option Int
  lastHeartbeatAt : Option Instant
  checkedAt : Option Instant
deriving DecidableEq, Repr

structure RuntimeReportRequest where
  apiHealthy : Option Bool
  workerHealthy : Option Bool
  schemaVersion : Option Int
  deployedSha : Option String
  outboxPending : Option Int
  queueLag : Option Int
  awaitingApproval : Option Int
  northStarFans : Option Int
  redditHalted : Option Bool
  repliesWaiting : Option Int
  cutCandidateLanes : Option Int
  lastHeartbeatAt : Option Instant
deriving DecidableEq, Repr

inductive RuntimeHealth where
  | healthy
  | degraded
  | stale
  | unknown
deriving DecidableEq, Repr

namespace RuntimeHealth

def asStr : RuntimeHealth → String
  | .healthy => "healthy"
  | .degraded => "degraded"
  | .stale => "stale"
  | .unknown => "unknown"

/-- Freshness is the older of the server's receipt and the reporter's heartbeat. -/
def classify (runtime : Option RuntimeStatusRow) (now : Instant) (staleAfterSeconds : Int) :
    RuntimeHealth :=
  match runtime with
  | none => .unknown
  | some runtime =>
    match runtime.checkedAt with
    | none => .unknown
    | some checkedAt =>
      let observedAt :=
        match runtime.lastHeartbeatAt with
        | some heartbeat => min checkedAt heartbeat
        | none => checkedAt
      if observedAt < now - seconds (max staleAfterSeconds 1) then .stale
      else
        match runtime.apiHealthy, runtime.workerHealthy with
        | some true, some true => .healthy
        | some false, _ => .degraded
        | _, some false => .degraded
        | _, _ => .unknown

end RuntimeHealth

structure OutreachAlertRow where
  tenantId : Uuid
  redditHalted : Option Bool
  repliesWaiting : Option Int
  cutCandidateLanes : Option Int
  updatedAt : Instant
deriving DecidableEq, Repr

/-! ### Billing -/

inductive BillingEvent where
  | subscriptionStarted
  | paymentSucceeded
  | paymentFailed
  | subscriptionCanceled
  | subscriptionRefunded
deriving DecidableEq, Repr

namespace BillingEvent

def asStr : BillingEvent → String
  | .subscriptionStarted => "subscription_started"
  | .paymentSucceeded => "payment_succeeded"
  | .paymentFailed => "payment_failed"
  | .subscriptionCanceled => "subscription_canceled"
  | .subscriptionRefunded => "subscription_refunded"

def all : List BillingEvent :=
  [.subscriptionStarted, .paymentSucceeded, .paymentFailed, .subscriptionCanceled,
    .subscriptionRefunded]

/-- The events the webhook acts on; every other name is acknowledged and ignored. -/
def parse (name : String) : Option BillingEvent := all.find? fun event => event.asStr = name

end BillingEvent

inductive BillingState where
  | trialing
  | active
  | pastDue
  | canceled
  | refunded
deriving DecidableEq, Repr

/-- The next state after an event, or `none` when the event does not move the machine. -/
def BillingState.apply (current : Option BillingState) (event : BillingEvent) (inTrial : Bool) :
    Option BillingState :=
  match event with
  | .subscriptionStarted => some (if inTrial then .trialing else .active)
  | .paymentSucceeded =>
    match current with
    | some .refunded => none
    | _ => some .active
  | .paymentFailed =>
    match current with
    | some .trialing | some .active | some .pastDue | none => some .pastDue
    | some .canceled | some .refunded => none
  | .subscriptionCanceled =>
    match current with
    | some .refunded => none
    | _ => some .canceled
  | .subscriptionRefunded => some .refunded

structure BillingEventInput where
  event : BillingEvent
  provider : String
  providerCustomerId : Option String
  providerSubscriptionId : Option String
  subscriptionStartedAt : Option Instant
  trialEndsAt : Option Instant
  currentPeriodEndsAt : Option Instant
deriving DecidableEq, Repr

structure TenantBillingRow where
  tenantId : Uuid
  provider : String
  providerCustomerId : Option String
  providerSubscriptionId : Option String
  state : BillingState
  subscriptionStartedAt : Instant
  trialEndsAt : Option Instant
  currentPeriodEndsAt : Option Instant
  updatedAt : Instant
deriving DecidableEq, Repr

structure BillingView where
  state : BillingState
  subscriptionStartedAt : Instant
  trialEndsAt : Option Instant
  currentPeriodEndsAt : Option Instant
deriving DecidableEq, Repr

/-! ### The ninety-day guarantee -/

structure TenantGuaranteeRow where
  tenantId : Uuid
  metricKey : String
  baselineValue : Int
  baselineCapturedAt : Instant
  deadline : Instant
  anchoredStartedAt : Option Instant
deriving DecidableEq, Repr

inductive GuaranteeState where
  | unmeasured
  | tracking
  | kept
  | refundOwed
deriving DecidableEq, Repr

def GuaranteeState.derive (elapsed : Bool) (current : Option Int) (baseline : Int) :
    GuaranteeState :=
  if !elapsed then .tracking
  else if current.any fun value => baseline < value then .kept
  else .refundOwed

structure GuaranteeView where
  state : GuaranteeState
  metricKey : String
  baselineValue : Option Int
  baselineCapturedAt : Option Instant
  deadline : Option Instant
  currentValue : Option Int
  currentCapturedAt : Option Instant
  daysRemaining : Option Int
deriving DecidableEq, Repr

/-! ### Parking, notifications and summaries -/

structure ParkSnapshotRow where
  tenantId : Uuid
  parkedAt : Instant
  parkedBy : String
  agentEnabled : Bool
  dryRun : Bool
  posture : String
  envelopeVersion : Int
  weeklyOwnedAudienceTouches : Int
  weeklyThirdPartyTouches : Int
  subjectCooldownHours : Int
  maxRecipientsPerStep : Int
  postureVersion : Int
  reason : Option String
  unparkedAt : Option Instant
  unparkedBy : Option String
deriving DecidableEq, Repr

structure NotifierChannelRow where
  id : Uuid
  tenantId : Uuid
  enabled : Bool
  events : List String
deriving DecidableEq, Repr

inductive NotifierEvent where
  | provisioningFailed
  | runtimeDegraded
  | runtimeStale
  | runtimeRecovered
  | approvalsPending
  | outreachRedditHalted
  | outreachRepliesWaiting
  | outreachLanesCut
deriving DecidableEq, Repr

def NotifierEvent.asStr : NotifierEvent → String
  | .provisioningFailed => "provisioning.failed"
  | .runtimeDegraded => "runtime.degraded"
  | .runtimeStale => "runtime.stale"
  | .runtimeRecovered => "runtime.recovered"
  | .approvalsPending => "approvals.pending"
  | .outreachRedditHalted => "outreach.reddit_halted"
  | .outreachRepliesWaiting => "outreach.replies_waiting"
  | .outreachLanesCut => "outreach.lanes_cut"

inductive OutboxStatus where
  | pending
  | sent
  | dead
deriving DecidableEq, Repr

structure OutboxRow where
  id : Uuid
  channelId : Uuid
  event : NotifierEvent
  payload : Json
  status : OutboxStatus
  attempts : Nat
  nextAttemptAt : Instant
  lastError : Option String

/-! ### Operators and the audit log -/

inductive OperatorRole where
  | platformAdmin
  | platformViewer
  | tenantOperator
deriving DecidableEq, Repr

structure OperatorAccountRow where
  id : Uuid
  username : String
  passwordHash : String
  role : OperatorRole
  tenantId : Option Uuid
  active : Bool
deriving DecidableEq, Repr

structure AuditRow where
  id : Uuid
  tenantId : Option Uuid
  actor : String
  action : String
  targetKind : String
  targetId : String
  detail : Json
  createdAt : Instant

structure TenantSummary where
  tenant : TenantRow
  runtime : Option RuntimeStatusRow
  runtimeHealth : RuntimeHealth
  billing : Option BillingView
  enabledNotifierChannels : Nat

end ControlPlane
