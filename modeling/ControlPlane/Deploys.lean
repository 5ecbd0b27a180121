import ControlPlane.Schema

/-!
# Deploys of externally owned tenants

A workflow on GitHub deploys tenants whose runtime is not ours. Each attempt leaves rows in the
audit log, before the request and for its outcome, and looks for recent ones first.
-/

namespace ControlPlane

open ReadCommitted.Handler

/-- `POST .../actions/workflows/ecosystem-deploy.yml/dispatches` on the main branch. -/
structure DispatchRequest where
  repo : String
  token : String
  targetSha : String

inductive DispatchAnswer where
  | status (code : Nat)
  | timeout
  /-- The connection failed before GitHub had the request. -/
  | transportError

structure GitHub where
  answers : Nat → DispatchAnswer
  dispatches : List DispatchRequest

def GitHub.next (github : GitHub) : DispatchAnswer := github.answers github.dispatches.length

def dispatch (req : DispatchRequest) (github : GitHub) : DispatchAnswer × GitHub :=
  (github.next, { github with dispatches := req :: github.dispatches })

def deploySchema :
    ReadCommitted.Schema Row Index DispatchRequest DispatchAnswer GitHub where
  index := rowIndex
  check := rowCheck
  serve := dispatch
  unanswered := .timeout

abbrev DeployHandler := ReadCommitted.Handler Row DispatchRequest DispatchAnswer ApiError

structure DeployConfig where
  githubDeployCooldownSeconds : Int
  githubDeployToken : Option String
  githubDeployRepo : Option String

inductive DeployOutcome where
  | requested
  | accepted
  | unknown
  | rejected
  | transportFailed
deriving DecidableEq, Repr

def DeployOutcome.asStr : DeployOutcome → String
  | .requested => "requested"
  | .accepted => "accepted"
  | .unknown => "unknown"
  | .rejected => "rejected"
  | .transportFailed => "transport_failed"

namespace Store

def auditsOf (db : AList Row) : List AuditRow :=
  db.keys.filterMap fun key =>
    match key with
    | .audit id => db.lookup (.audit id)
    | _ => none

/-- The rows the cooldown looks at. A request that was made counts, whatever has come of it. -/
def countsAsDeploy (tenantId : Uuid) (row : AuditRow) : Bool :=
  row.tenantId = some tenantId && row.action = "tenant.deploy.dispatched" &&
    row.targetKind = "external_deploy" &&
    (row.detail.textAt "outcome").any (["requested", "accepted", "unknown"].contains ·)

/-- `SELECT MAX(created_at)` over the rows of the window that ends now. -/
def recentExternalDeploy (tenantId : Uuid) (cooldownSeconds : Int) :
    DeployHandler (Option Instant) :=
  inTransaction do
    let now ← sqlNow
    let seen ← snapshot
    let recent := (auditsOf seen).filter fun row =>
      countsAsDeploy tenantId row && now - seconds cooldownSeconds < row.createdAt
    pure (recent.map (·.createdAt)).max?

def withOutcome (outcome : DeployOutcome) : Json → Json
  | .obj members => .obj (members ++ [("outcome", .str outcome.asStr)])
  | detail => detail

def deployAudit (id tenantId : Uuid) (slug actor : String) (outcome : DeployOutcome) (detail : Json)
    (now : Instant) : AuditRow where
  id := id
  tenantId := some tenantId
  actor := actor
  action := "tenant.deploy.dispatched"
  targetKind := "external_deploy"
  targetId := slug
  detail := withOutcome outcome detail
  createdAt := now

def auditExternalDeploy (tenantId : Uuid) (slug actor : String) (outcome : DeployOutcome)
    (detail : Json) : DeployHandler Unit :=
  inTransaction do
    let id ← fresh
    let now ← sqlNow
    let inserted ← insert (Key.audit id) fun _ =>
      deployAudit id tenantId slug actor outcome detail now
    ensure (inserted = true) (.database (.constraint .unique))

end Store

structure DispatchedJob where
  id : String
  tenantId : String
  status : String
  phase : String
  desiredVersion : Option String
  planKind : String
  targetSha : Option String
  workflowUrl : String
  createdBy : String
  attemptCount : Nat
  createdAt : Instant
  updatedAt : Instant

namespace Routes

def externalDeployTarget (desiredVersion : Option String) : Except ApiError String :=
  match (desiredVersion.map Text.trim).filter (· ≠ "") with
  | none => .ok ""
  | some raw =>
    let sha := (Text.strip "sha-" raw).getD raw
    if sha.utf8ByteSize ≠ 40 ∨
        ¬ Text.all (fun c => Text.isAsciiHexdigit c && !Text.isAsciiUppercase c) sha then
      .error (.invalidInput
        "desiredVersion must be a 40 lowercase hex commit SHA for an externally-owned tenant")
    else .ok sha

/-- An empty target means that the workflow resolves the branch itself. -/
def namedSha (targetSha : String) : Option String := if targetSha = "" then none else some targetSha

def requestedDetail (repo : String) (desiredVersion : Option String) (targetSha : String) : Json :=
  .obj [("repo", .str repo), ("workflow", .str "ecosystem-deploy.yml"), ("ref", .str "main"),
    ("expectedVersion", .ofOption .str desiredVersion),
    ("targetSha", .ofOption .str (namedSha targetSha))]

def rejectedDetail (status : Nat) : Json → Json
  | .obj members => .obj (members ++ [("httpStatus", .num status)])
  | detail => detail

def recentDispatch (agoSeconds : Int) : ApiError :=
  .conflict ("a deploy dispatch was accepted " ++ toString agoSeconds ++
    "s ago — wait for it to land or check GitHub Actions before dispatching again")

/-- What comes of the request is recorded before it is reported. -/
def recordDispatch (tenantId : Uuid) (slug actor : String) (requested : Json) :
    DispatchAnswer → DeployHandler Unit
  | .timeout => do
    Store.auditExternalDeploy tenantId slug actor .unknown requested
    throw .timeout
  | .transportError => do
    Store.auditExternalDeploy tenantId slug actor .transportFailed requested
    throw .unreachable
  | .status code =>
    if 200 ≤ code ∧ code < 300 then
      Store.auditExternalDeploy tenantId slug actor .accepted requested
    else do
      Store.auditExternalDeploy tenantId slug actor .rejected (rejectedDetail code requested)
      throw (.upstreamError code)

def triggerEcosystemDeploy (cfg : DeployConfig) (tenantId : Uuid) (slug actor : String)
    (desiredVersion : Option String) : DeployHandler DispatchedJob := do
  let targetSha ← require (externalDeployTarget desiredVersion)
  whenever (0 < cfg.githubDeployCooldownSeconds) do
    let last ← Store.recentExternalDeploy tenantId cfg.githubDeployCooldownSeconds
    forSome last fun last => do
      let now ← utcNow
      throw (recentDispatch ((now - last).tdiv (seconds 1)))
  let (token, repo) ← okOr
    (cfg.githubDeployToken.bind fun token => cfg.githubDeployRepo.map fun repo => (token, repo))
    (.unavailable ("GitHub deploy trigger is not configured — set " ++
      "CONTROL_PLANE_GITHUB_DEPLOY_TOKEN and CONTROL_PLANE_GITHUB_DEPLOY_REPO"))
  let requested := requestedDetail repo desiredVersion targetSha
  Store.auditExternalDeploy tenantId slug actor .requested requested
  let answer ← request { repo := repo, token := token, targetSha := targetSha }
  recordDispatch tenantId slug actor requested answer
  let dispatchedAt ← utcNow
  let createdAt ← utcNow
  let updatedAt ← utcNow
  pure
    { id := "github-dispatch-" ++ toString (dispatchedAt.tdiv 1000)
      tenantId := slug
      status := "planned"
      phase := "accepted"
      desiredVersion := desiredVersion
      planKind := "ecosystem_deploy"
      targetSha := namedSha targetSha
      workflowUrl := "https://github.com/" ++ repo ++ "/actions/workflows/ecosystem-deploy.yml"
      createdBy := actor
      attemptCount := 0
      createdAt := createdAt
      updatedAt := updatedAt }

end Routes

/-- A request to deploy an externally owned tenant, which the caller has looked up. -/
structure DeployCall where
  tenantId : Uuid
  slug : String
  actor : String
  desiredVersion : Option String

def deployServer (cfg : DeployConfig) :
    ReadCommitted.Server Row Index DispatchRequest DispatchAnswer GitHub DeployCall
      (Except ApiError DispatchedJob) where
  schema := deploySchema
  handler call :=
    (Routes.triggerEcosystemDeploy cfg call.tenantId call.slug call.actor call.desiredVersion).run

end ControlPlane
