import ControlPlane.Model
import ControlPlane.ReadCommitted.Semantics

/-!
# Tables, constraints and the tenant's growth envelope

The rows, the partial unique indexes and the CHECK constraints as migrated. Of each tenant's own
service the lifecycle routes use the growth envelope, a register with optimistic versions, and the
posture.
-/

namespace ControlPlane

open ReadCommitted

inductive Key where
  | tenant (id : Uuid)
  | job (id : Uuid)
  | runtime (tenantId : Uuid)
  | billing (tenantId : Uuid)
  | guarantee (tenantId : Uuid)
  | parkSnapshot (tenantId : Uuid)
  | outreachAlert (tenantId : Uuid)
  | channel (id : Uuid)
  | outbox (id : Uuid)
  /-- The entry of a slug in the unique index on tenants. -/
  | slug (slug : String)
  | account (username : String)
  | audit (id : Uuid)
  /-- What `pg_advisory_xact_lock` locks. -/
  | advisory (key : Int)
deriving DecidableEq, Repr

@[reducible]
def Row : Key → Type
  | .tenant _ => TenantRow
  | .job _ => ProvisioningJobRow
  | .runtime _ => RuntimeStatusRow
  | .billing _ => TenantBillingRow
  | .guarantee _ => TenantGuaranteeRow
  | .parkSnapshot _ => ParkSnapshotRow
  | .outreachAlert _ => OutreachAlertRow
  | .channel _ => NotifierChannelRow
  | .outbox _ => OutboxRow
  | .slug _ => Uuid
  | .account _ => OperatorAccountRow
  | .audit _ => AuditRow
  | .advisory _ => Unit

inductive Index where
  | activeJob (tenantId : Uuid)
  | workspace (id : Uuid)
deriving DecidableEq, Repr

/-- `control_plane_provisioning_one_active_uidx`. -/
def jobIndex (row : ProvisioningJobRow) : Option Index :=
  if row.status.isActive then some (.activeJob row.tenantId) else none

def tenantIndex (row : TenantRow) : Option Index := row.workspaceId.map Index.workspace

def rowIndex : (key : Key) → Row key → Option Index
  | .tenant _, row => tenantIndex row
  | .job _, row => jobIndex row
  | .runtime _, _ | .billing _, _ | .guarantee _, _ | .parkSnapshot _, _ | .outreachAlert _, _
  | .channel _, _ | .outbox _, _ | .slug _, _ | .account _, _ | .audit _, _ | .advisory _, _ => none

def nonNegative (value : Option Int) : Bool := value.all (0 ≤ ·)

/-- `control_plane_provision_claim_ck`. -/
def claimCheck (row : ProvisioningJobRow) : Bool :=
  if row.status = .running then
    row.claimedBy.isSome && row.claimTokenHash.isSome && row.leaseExpiresAt.isSome
  else row.claimTokenHash.isNone && row.leaseExpiresAt.isNone

/-- `control_plane_provision_error_ck`. -/
def errorCheck (row : ProvisioningJobRow) : Bool :=
  (row.errorCode.all fun code => 1 ≤ code.length && code.length ≤ 96) &&
    row.errorDetail.all fun detail => detail.length ≤ 1000

def jobCheck (row : ProvisioningJobRow) : Bool :=
  row.attemptCount ≤ 10 && claimCheck row && errorCheck row

def runtimeCheck (row : RuntimeStatusRow) : Bool :=
  nonNegative row.schemaVersion && nonNegative row.outboxPending && nonNegative row.queueLag

def isBlank (s : String) : Bool := s.toList.all (· == ' ')

def billingCheck (row : TenantBillingRow) : Bool :=
  !isBlank row.provider && row.provider.length ≤ 32

def guaranteeCheck (row : TenantGuaranteeRow) : Bool :=
  !isBlank row.metricKey && row.metricKey.length ≤ 64 && 0 ≤ row.baselineValue

def outreachAlertCheck (row : OutreachAlertRow) : Bool :=
  nonNegative row.repliesWaiting && nonNegative row.cutCandidateLanes

/-- `operator_role_scope_check`. -/
def accountCheck (row : OperatorAccountRow) : Bool :=
  match row.role with
  | .platformAdmin | .platformViewer => row.tenantId.isNone
  | .tenantOperator => row.tenantId.isSome

def rowCheck : (key : Key) → Row key → Bool
  | .tenant _, _ | .parkSnapshot _, _ | .channel _, _ | .outbox _, _ | .slug _, _ | .audit _, _
  | .advisory _, _ => true
  | .job _, row => jobCheck row
  | .runtime _, row => runtimeCheck row
  | .billing _, row => billingCheck row
  | .guarantee _, row => guaranteeCheck row
  | .outreachAlert _, row => outreachAlertCheck row
  | .account _, row => accountCheck row

structure GrowthEnvelope where
  agentEnabled : Bool
  dryRun : Bool
  weeklyOwnedAudienceTouches : Nat
  weeklyThirdPartyTouches : Nat
  subjectCooldownHours : Nat
  maxRecipientsPerStep : Nat
  parked : Bool
  version : Int
deriving DecidableEq, Repr

structure Posture where
  posture : String
  version : Int
deriving DecidableEq, Repr

structure TenantService where
  envelope : GrowthEnvelope
  posture : Posture
  areaEnabled : Bool
deriving DecidableEq, Repr

abbrev Upstream := Uuid → TenantService

structure EnvelopeRequest where
  agentEnabled : Bool
  dryRun : Bool
  weeklyOwnedAudienceTouches : Int
  weeklyThirdPartyTouches : Int
  subjectCooldownHours : Int
  maxRecipientsPerStep : Int
  parked : Bool
  expectedVersion : Int
deriving DecidableEq, Repr

inductive ManagementRequest where
  | getEnvelope (tenantId : Uuid) (targetUrl : String)
  | getPosture (tenantId : Uuid) (targetUrl : String)
  | postEnvelope (tenantId : Uuid) (targetUrl : String) (body : EnvelopeRequest)
  | postPosture (tenantId : Uuid) (targetUrl : String) (posture : String) (expectedVersion : Int)
  | patchAreaSettings (tenantId : Uuid) (targetUrl : String) (enabled : Bool)
deriving DecidableEq, Repr

def GrowthEnvelope.toJson (envelope : GrowthEnvelope) : Json :=
  .obj [("agentEnabled", .bool envelope.agentEnabled), ("dryRun", .bool envelope.dryRun),
    ("weeklyOwnedAudienceTouches", .num envelope.weeklyOwnedAudienceTouches),
    ("weeklyThirdPartyTouches", .num envelope.weeklyThirdPartyTouches),
    ("subjectCooldownHours", .num envelope.subjectCooldownHours),
    ("maxRecipientsPerStep", .num envelope.maxRecipientsPerStep),
    ("parked", .bool envelope.parked), ("version", .num envelope.version)]

def Posture.toJson (posture : Posture) : Json :=
  .obj [("posture", .str posture.posture), ("expected_version", .num posture.version)]

/-- A POST that names the current version replaces the register and moves the version on; any other
is refused and changes nothing. -/
def GrowthEnvelope.replace (envelope : GrowthEnvelope) (body : EnvelopeRequest) :
    Option GrowthEnvelope :=
  if body.expectedVersion = envelope.version then
    some {
      agentEnabled := body.agentEnabled
      dryRun := body.dryRun
      weeklyOwnedAudienceTouches := body.weeklyOwnedAudienceTouches.toNat
      weeklyThirdPartyTouches := body.weeklyThirdPartyTouches.toNat
      subjectCooldownHours := body.subjectCooldownHours.toNat
      maxRecipientsPerStep := body.maxRecipientsPerStep.toNat
      parked := body.parked
      version := envelope.version + 1 }
  else none

def versionConflict : ApiError := .conflict "version conflict"

def serveTenant (service : TenantService) : ManagementRequest → Except ApiError Json × TenantService
  | .getEnvelope _ _ => (.ok service.envelope.toJson, service)
  | .getPosture _ _ => (.ok service.posture.toJson, service)
  | .postEnvelope _ _ body =>
    match service.envelope.replace body with
    | some envelope => (.ok envelope.toJson, { service with envelope := envelope })
    | none => (.error versionConflict, service)
  | .postPosture _ _ posture expectedVersion =>
    if expectedVersion = service.posture.version then
      let next : Posture := { posture := posture, version := expectedVersion + 1 }
      (.ok next.toJson, { service with posture := next })
    else (.error versionConflict, service)
  | .patchAreaSettings _ _ enabled =>
    (.ok (.obj [("enabled", .bool enabled)]), { service with areaEnabled := enabled })

def ManagementRequest.tenantId : ManagementRequest → Uuid
  | .getEnvelope tenantId _ | .getPosture tenantId _ | .postEnvelope tenantId _ _
  | .postPosture tenantId _ _ _ | .patchAreaSettings tenantId _ _ => tenantId

def serve (request : ManagementRequest) (upstream : Upstream) : Except ApiError Json × Upstream :=
  let served := serveTenant (upstream request.tenantId) request
  (served.1, Function.update upstream request.tenantId served.2)

def schema : Schema Row Index ManagementRequest (Except ApiError Json) Upstream where
  index := rowIndex
  check := rowCheck
  serve := serve
  unanswered := .error .timeout

abbrev Handler := ReadCommitted.Handler Row ManagementRequest (Except ApiError Json) ApiError

end ControlPlane
