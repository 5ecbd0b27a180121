import ControlPlane.Provisioner.Files

/-!
# A claim from end to end

`claim_once` takes a job, `process_claim` deploys it while a thread renews the lease, and
`fail_claim` reports an error that cannot be retried. What a library raises is passed on under its
class name.
-/

namespace ControlPlane.Provisioner

open Interleave
open Interleave.Task (ask require ensure outcome)
open Pattern (literal times oneOf fullmatch)
open Python (Exc)

variable (rt : Runtime) (config : Config)

/-! ### The control plane -/

/-- `str`. -/
def pyStr : Json → String
  | .str s => s
  | value => rt.str value

/-- The exceptions that `api_with_token` translates. -/
def translated : Exc → Bool
  | .urlError | .timeoutError | .jsonDecodeError => true
  | .osError _ | .recursionError | .other _ => false

def apiException (e : Exc) : Exn :=
  if translated e then
    .provision { code := "control_plane_unavailable", detail := e.name, terminal := false }
  else .other e.name

/-- The detail of an HTTP error; nothing that goes wrong with its body matters. -/
def httpDetail (code : Nat) : Except Exc Json → String
  | .ok (.obj members) =>
    pyStr rt (orElse (item "detail" (.obj members))
      (orElse (item "error" (.obj members)) (.str ("HTTP " ++ toString code))))
  | _ => "HTTP " ++ toString code

def apiResult : Fetched → Except Exn Json
  | .raised e => .error (apiException e)
  | .tooLarge =>
    .error (.provision
      { code := "control_plane_response_too_large", detail := "Control Plane response exceeded 2 MiB" })
  | .body (.ok value) => .ok (orElse value (.obj []))
  | .body (.error e) => .error (apiException e)
  -- the body of an HTTP error is read in the handler itself
  | .httpError _ (.error e) => .error (.other e.name)
  | .httpError code (.ok loaded) =>
    .error (.provision
      { code := "control_plane_http_error", detail := httpDetail rt code loaded
        terminal := code < 500 && !([408, 425, 429].contains code) })

def api (method path : String) (payload : Json) : Agent Json := do
  let fetched ← ask (HostOp.api ⟨method, path, payload⟩)
  require (apiResult rt fetched)

/-! ### Docker -/

/-- An argument with a null character is refused before anything is started. -/
def runBounded (command : List String) (timeout : Nat) (errorCode : String) :
    Agent (Int × List Char) := do
  ensure (¬ command.any (·.toList.contains '\x00')) (.other "ValueError")
  match ← ask (HostOp.runBounded command) with
  | .unstarted exception => throw (.provision { code := errorCode, detail := exception })
  | .killed true =>
    throw (.provision
      { code := errorCode, detail := "TimeoutExpired after " ++ toString timeout ++ "s" })
  | .killed false => throw (.other "TimeoutExpired")
  | .exited returncode output => pure (returncode, output)

def tenantPath (slug file : String) : String := config.root ++ "/" ++ slug ++ "/" ++ file

def composeCmd (slug project : String) (args : List String) (timeout : Nat) : Agent (List Char) := do
  let (returncode, output) ← runBounded
    ([config.docker, "compose", "-p", project, "--env-file", tenantPath config slug ".env", "-f",
      tenantPath config slug "compose.yaml"] ++ args) timeout "docker_compose_unavailable"
  ensure (returncode = 0) (.provision
    { code := "docker_compose_failed"
      detail := "docker compose " ++ " ".intercalate (args.take 2) ++ " failed with exit " ++
        toString returncode })
  pure output

def dockerCmd (args : List String) (timeout : Nat) (errorCode : String) (terminal : Bool := true) :
    Agent (List Char) := do
  let (returncode, output) ← runBounded (config.docker :: args) timeout errorCode
  ensure (returncode = 0) (.provision
    { code := errorCode
      detail := "docker " ++ args.headD "" ++ " failed with exit " ++ toString returncode
      terminal })
  pure output

/-! ### Images -/

def firstObject : List (List Char) → Except Exn (Option Json)
  | [] => .ok none
  | line :: lines =>
    if (Python.strip line).head? = some '\x7b' then
      match rt.loads (Python.strip line) with
      | .ok (.obj members) => .ok (some (.obj members))
      | .ok _ | .error .jsonDecodeError => firstObject lines
      | .error e => .error (.other e.name)
    else firstObject lines

def inspected (image : String) (raw : List Char) : Except Exn Json := do
  match ← firstObject rt (Python.splitlines (Python.strip raw)).reverse with
  | some metadata => pure metadata
  | none =>
    .error (.provision
      { code := "image_inspect_failed"
        detail := "docker image inspect returned no object for " ++ image })

def inspectImage (image : String) : Agent Json := do
  let raw ← dockerCmd config ["image", "inspect", image, "--format", "\x7b\x7bjson .\x7d\x7d"] 60
    "image_inspect_failed"
  require (inspected rt image raw)

def revisionPattern : RegularExpression Char := times 40 (oneOf hexdigit)

def digestPattern : RegularExpression Char := literal "sha256:" * times 64 (oneOf hexdigit)

def revisionOf (metadata : Json) : Json :=
  match item "Config" metadata with
  | .obj settings =>
    match item "Labels" (.obj settings) with
    | .obj labels => item "org.opencontainers.image.revision" (.obj labels)
    | _ => .null
  | _ => .null

/-- `metadata.get("RepoDigests") or []`, as a loop goes through it. -/
def repoDigests (metadata : Json) : Except Exn (List Json) :=
  match orElse (item "RepoDigests" metadata) (.arr []) with
  | .arr items => .ok items
  | .obj members => .ok (members.map fun entry => .str entry.1)
  | .str s => .ok (s.toList.map fun c => .str (String.singleton c))
  | .null | .bool _ | .num _ => .error (.other "TypeError")

def digestOf (repository : List Char) : Json → Option String
  | .str s =>
    let lead := repository ++ ['@']
    if lead.isPrefixOf s.toList && fullmatch digestPattern (String.ofList (s.toList.drop lead.length)) then
      some s
    else none
  | _ => none

def pinnedReference (image expectedSha : String) (metadata : Json) : Except Exn String := do
  let revision ← match revisionOf metadata with
    | .str revision =>
      if fullmatch revisionPattern revision then .ok revision
      else .error (.provision
        { code := "image_revision_missing"
          detail := image ++
            " does not publish a 40-character org.opencontainers.image.revision label" })
    | _ => .error (.provision
        { code := "image_revision_missing"
          detail := image ++ " does not publish a 40-character org.opencontainers.image.revision label" })
  if revision ≠ expectedSha then
    .error (.provision
      { code := "image_revision_mismatch"
        detail := image ++ " was built from revision " ++ revision ++ ", not the planned " ++
          expectedSha })
  let repository := (Python.rpartition ':' image.toList).1
  let digests ← repoDigests metadata
  match (digests.filterMap (digestOf repository)).eraseDups with
  | [] => .error (.provision
      { code := "image_digest_unresolved"
        detail := image ++ " has no registry digest for " ++ String.ofList repository })
  | [reference] => pure reference
  | _ => .error (.provision
      { code := "image_digest_ambiguous"
        detail := image ++ " resolves to multiple digests for " ++ String.ofList repository })

def pinnedImageReference (image expectedSha : String) : Agent String := do
  let _ ← dockerCmd config ["pull", "--quiet", image] 600 "image_pull_failed"
  let metadata ← inspectImage rt config image
  require (pinnedReference image expectedSha metadata)

def verifyReleaseDigestStability (deployment : Json) (desired key resolved : String) :
    Except Exn Unit :=
  if (item "desiredVersion" deployment).asStr ≠ some desired then .ok ()
  else
    match item key deployment with
    | .str previous =>
      if previous ≠ "" ∧ previous ≠ resolved then
        .error (.provision
          { code := "image_digest_changed"
            detail := "release " ++ desired ++ " previously resolved " ++ key ++ " to " ++ previous ++
              " but now resolves to " ++ resolved })
      else .ok ()
    | _ => .ok ()

/-! ### The lease -/

def leaseLostError (lost : ProvisionError) : Exn :=
  .provision
    { code := "lease_lost"
      detail := "provisioning lease was lost during deployment: " ++ lost.detail }

def checkLease : Agent Unit := do
  match ← ask HostOp.leaseLost with
  | some lost => throw (leaseLostError lost)
  | none => pure ()

/-! ### Readiness -/

def apiReadinessTimeout (last : String) : Exn :=
  .provision
    { code := "api_readiness_timeout", detail := "CrowdRelay API readiness timed out (" ++ last ++ ")" }

/-- The loop of `wait_http`. It sleeps two seconds in each round, so that the deadline cannot be
missed in all of the rounds it is given. -/
def waitHttpFor (port : Nat) : Nat → String → Agent Unit
  | 0, last => throw (apiReadinessTimeout last)
  | rounds + 1, last => do
    if ← ask HostOp.beforeDeadline then
      match ← ask (HostOp.probeReady port) with
      | .ok status =>
        if status = 200 then pure () else waitHttpFor port rounds ("HTTP " ++ toString status)
      | .error exception => waitHttpFor port rounds exception
    else throw (apiReadinessTimeout last)

def waitHttp (port timeoutSeconds : Nat) : Agent Unit :=
  waitHttpFor port (timeoutSeconds / 2 + 1) "unavailable"

def containerHealth (slug project service : String) : Agent (Option (List Char)) := do
  let containerId ← composeCmd config slug project ["ps", "-q", service] 15
  let containerId := Python.strip containerId
  if containerId = [] then pure none
  else
    let health ← dockerCmd config
      ["inspect", "--format",
        "\x7b\x7bif .State.Health\x7d\x7d\x7b\x7b.State.Health.Status\x7d\x7d\x7b\x7belse\x7d\x7d\x7b\x7b.State.Status\x7d\x7d\x7b\x7bend\x7d\x7d",
        String.ofList containerId] 15 "container_health_probe_failed"
    pure (some (Python.strip health))

def readinessTimeout (service : String) (last : List Char) : Exn :=
  .provision
    { code := service ++ "_readiness_timeout"
      detail := "CrowdRelay " ++ service ++ " did not become healthy (" ++ String.ofList last ++ ")" }

def waitContainerHealthyFor (slug project service : String) : Nat → List Char → Agent Unit
  | 0, last => throw (readinessTimeout service last)
  | rounds + 1, last => do
    if ← ask HostOp.beforeDeadline then
      match ← outcome (containerHealth config slug project service) with
      | .ok none => waitContainerHealthyFor slug project service rounds last
      | .ok (some health) =>
        let last := if health = [] then "unknown".toList else health
        if health = "healthy".toList then pure ()
        else if health = "exited".toList ∨ health = "dead".toList then
          throw (readinessTimeout service last)
        else waitContainerHealthyFor slug project service rounds last
      | .error (.provision e) => waitContainerHealthyFor slug project service rounds e.code.toList
      | .error (.other exception) => throw (.other exception)
    else throw (readinessTimeout service last)

def waitContainerHealthy (slug project service : String) (timeoutSeconds : Nat) : Agent Unit :=
  waitContainerHealthyFor config slug project service (timeoutSeconds / 2 + 1)
    "container unavailable".toList

/-! ### Databases -/

def isShared (plan : Json) : Bool := (item "placement" plan).asStr = some "shared_pg"

def text (value : Json) : String := value.asStr.getD ""

def lastLine (output : List Char) : List Char :=
  Python.strip ((Python.splitlines (Python.strip output)).getLast?.getD [])

def queryPostgres (plan : Json) (sql : String) : Agent (List Char) := do
  let output ← if isShared plan then
      dockerCmd config
        ["exec", text (item "host" (item "sharedPg" plan)), "psql", "-U", "postgres", "-d",
          text (item "database" (item "sharedPg" plan)), "-At", "-c", sql] 30 "shared_pg_query_failed"
        false
    else
      composeCmd config (slugOf plan) (text (item "composeProject" plan))
        ["exec", "-T", "postgres", "psql", "-U", "crowdrelay", "-d", "crowdrelay", "-At", "-c", sql] 30
  pure (lastLine output)

def clusterPsql (cluster sql : String) : Agent (List Char) := do
  let output ← dockerCmd config
    ["exec", cluster, "psql", "-U", "postgres", "-d", "postgres", "-At", "-c", sql] 30
    "shared_pg_admin_failed" false
  pure (Python.strip output)

def ensureSharedDatabase (plan : Json) : Agent Unit := do
  let shared := item "sharedPg" plan
  let cluster := text (item "host" shared)
  ensure (cluster ∈ config.sharedPgClusters)
    (invalidPlan "shared pg cluster is not in the provisioner allowlist")
  let database := text (item "database" shared)
  let _ ← dockerCmd config ["network", "inspect", text (item "network" shared)] 15
    "shared_pg_network_missing" false
  let _ ← dockerCmd config ["exec", cluster, "pg_isready", "-U", "postgres"] 15
    "shared_pg_unavailable" false
  let env ← ask (HostOp.readEnv (slugOf plan))
  let password := envValue "POSTGRES_PASSWORD" (env.getD [])
  ensure (password ≠ []) missingPassword
  let role ← clusterPsql config cluster
    ("SELECT 1 FROM pg_roles WHERE rolname='" ++ database ++ "'")
  if role ≠ ['1'] then
    let _ ← clusterPsql config cluster
      ("CREATE ROLE " ++ database ++ " LOGIN PASSWORD '" ++ String.ofList password ++ "'")
  let _ ← clusterPsql config cluster
    ("ALTER ROLE " ++ database ++ " LOGIN CONNECTION LIMIT 40 PASSWORD '" ++ String.ofList password ++ "'")
  let found ← clusterPsql config cluster
    ("SELECT 1 FROM pg_database WHERE datname='" ++ database ++ "'")
  if found ≠ ['1'] then
    let _ ← clusterPsql config cluster ("CREATE DATABASE " ++ database ++ " OWNER " ++ database)
  let _ ← clusterPsql config cluster
    ("REVOKE CONNECT ON DATABASE " ++ database ++ " FROM PUBLIC; GRANT CONNECT ON DATABASE " ++
      database ++ " TO " ++ database ++ "; ALTER DATABASE " ++ database ++
      " SET statement_timeout = '120s'; ALTER DATABASE " ++ database ++ " SET work_mem = '16MB'")
  pure ()

/-! ### The edge -/

def subprocessRun (command : List String) : Agent (Int × List Char) := do
  match ← ask (HostOp.subprocessRun command) with
  | .raised exception => throw (.other exception)
  | .exited returncode stderr => pure (returncode, stderr)

def ensureEdgeNetwork : Agent Unit := do
  if config.edgeNetwork = "" then pure ()
  else
    let (found, _) ← subprocessRun [config.docker, "network", "inspect", config.edgeNetwork]
    if found = 0 then pure ()
    else
      let (created, stderr) ← subprocessRun [config.docker, "network", "create", config.edgeNetwork]
      ensure (created = 0) (.provision
        { code := "edge_network_failed"
          detail := "docker network create " ++ config.edgeNetwork ++ " failed: " ++
            String.ofList ((Python.strip stderr).take 300) })

/-- `urlparse(url).hostname`. -/
def hostnameOf (url : String) : List Char :=
  match Python.urlsplit rt.toRuntime url.toList with
  | some parsed =>
    let (name, found, zone) := Python.partition '%' parsed.hostname
    rt.lower name ++ if found then '%' :: zone else []
  | none => []

def extractHostname (url : String) : Except Exn String :=
  if hostnameOf rt url = [] then
    .error (invalidPlan ("could not extract hostname from " ++ url))
  else .ok (String.ofList (hostnameOf rt url))

def hostPublicIp : Agent String := do
  if config.publicIp ≠ "" then pure config.publicIp
  else
    match ← ask HostOp.outboundAddress with
    | none => throw (.provision
        { code := "public_ip_unknown"
          detail := "cannot determine the host's outbound address; set CONTROL_PLANE_PUBLIC_IP" })
    | some address =>
      ensure (rt.isGlobal address) (.provision
        { code := "public_ip_unknown"
          detail := "host outbound address " ++ address ++ " is not publicly routable; " ++
            "set CONTROL_PLANE_PUBLIC_IP to the public address" })
      pure address

def netlify (method path : String) : Agent Json := do
  match ← ask (HostOp.netlify method path) with
  | .ok document => pure document
  | .error exception => throw (.other exception)

/-- `data if isinstance(data, list) else data.get(name, [])`. -/
def listed (name : String) : Json → Except Exn Json
  | .arr items => .ok (.arr items)
  | .obj members => .ok (((Json.obj members).get name).getD (.arr []))
  | _ => .error (.other "AttributeError")

/-- `zones[0]`. -/
def firstOf : Json → Except Exn Json
  | .arr (first :: _) => .ok first
  | .str _ => .ok (.str "")
  | .obj _ => .error (.other "KeyError")
  | _ => .error (.other "TypeError")

def getOf (name : String) : Json → Except Exn Json
  | .obj members => .ok (item name (.obj members))
  | _ => .error (.other "AttributeError")

def zoneNotFound (detail : String) : Exn := .provision { code := "dns_zone_not_found", detail }

def zoneIdOf (data : Json) : Except Exn Json := do
  let zones ← listed "dns_zones" data
  if ¬ truthy zones then
    .error (zoneNotFound ("Netlify DNS zone not found: " ++ config.netlifyDnsZone))
  let zone ← firstOf zones
  let zoneId := orElse (← getOf "id" zone) (← getOf "zone_id" zone)
  if ¬ truthy zoneId then
    .error (zoneNotFound ("Netlify DNS zone returned no ID for " ++ config.netlifyDnsZone))
  pure zoneId

/-- What a loop over a value goes through. -/
def iterated : Json → Except Exn (List Json)
  | .arr items => .ok items
  | .obj members => .ok (members.map fun entry => .str entry.1)
  | .str s => .ok (s.toList.map fun c => .str (String.singleton c))
  | .null | .bool _ | .num _ => .error (.other "TypeError")

def existingRecords (hostname : String) (data : Json) : Except Exn (List Json) := do
  let records ← listed "dns_records" data
  let items ← iterated records
  items.filterMapM fun record => do
    let name ← getOf "hostname" record
    let kind ← getOf "type" record
    pure (if name.asStr = some hostname ∧ kind.asStr = some "A" then some record else none)

def awaitPropagation (hostname instanceIp : String) : Nat → Agent Unit
  | 0 => pure ()
  | rounds + 1 => do
    match ← ask (HostOp.gethostbyname hostname) with
    | .ok resolved =>
      if resolved = instanceIp then pure () else awaitPropagation hostname instanceIp rounds
    | .error e =>
      ensure (e = .osError "gaierror") (.other e.name)
      awaitPropagation hostname instanceIp rounds

def autoConfigureDns (hostname instanceIp : String) : Agent Unit := do
  if !config.autoDns then pure ()
  else
    let data ← netlify "GET" ("/dns_zones?name=" ++ config.netlifyDnsZone)
    let zoneId ← require (zoneIdOf config data)
    let records := "/dns_zones/" ++ pyStr rt zoneId ++ "/dns_records"
    let data ← netlify "GET" records
    let existing ← require (existingRecords hostname data)
    match existing with
    | record :: _ =>
      let recordId ← require (getOf "id" record)
      if truthy recordId then
        let _ ← netlify "DELETE" (records ++ "/" ++ pyStr rt recordId)
    | [] => pure ()
    let _ ← netlify "POST" records
    awaitPropagation hostname instanceIp 18

def autoPublishEdgeRoute (hostname : String) (port : Nat) (tenantSlug : String) : Agent Unit := do
  if !config.autoEdge then pure ()
  else
    let upstream := if config.edgeNetwork ≠ "" then tenantSlug ++ "-api:8080"
      else "127.0.0.1:" ++ toString port
    if ← ask HostOp.edgeScriptExists then
      let (returncode, stderr) ← subprocessRun
        ["bash", config.edgeScript, hostname, toString port, upstream]
      ensure (returncode = 0) (.provision
        { code := "edge_publish_failed"
          detail := "add-tenant-edge-route.sh failed (exit " ++ toString returncode ++ "): " ++
            String.ofList (stderr.take 500) })
    else pure ()

def autoVerifyTenant (hostname : String) : Agent Unit := do
  if config.autoVerify then ask (HostOp.verifyTenant hostname) else pure ()

/-! ### A claim -/

/-- The data region of a plan: a missing profile reads as an empty one. -/
def plannedRegion (plan : Json) : Except Exn Json :=
  getOf "dataRegion" ((plan.get "regionalProfile").getD (.obj []))

/-- `metadata.update(…)`. -/
def recordResult (plan metadata : Json) (workspaceId schemaVersion : List Char)
    (deployedSha jobId : String) : Except Exn Json := do
  let version ← match rt.int schemaVersion with
    | some version => .ok version
    | none => .error (.other "ValueError")
  let dataRegion ← plannedRegion plan
  pure ((((((metadata.set "workspaceId" (.str (String.ofList workspaceId))).set
    "schemaVersion" (.num version)).set "deployedSha" (.str deployedSha)).set
    "jobId" (.str jobId)).set "provisionerWorkerId" (.str config.workerId)).set
    "dataRegion" dataRegion)

def automate (plan : Json) (port : Nat) : Agent Unit := do
  let base := item "crowdRelayBaseUrl" plan
  if truthy base && config.autoDns then
    let hostname ← require (extractHostname rt (text base))
    let instanceIp ← hostPublicIp rt config
    autoConfigureDns rt config hostname instanceIp
  if truthy base && config.autoEdge then
    let hostname ← require (extractHostname rt (text base))
    autoPublishEdgeRoute config hostname port (slugOf plan)
  if truthy base && config.autoVerify then
    let hostname ← require (extractHostname rt (text base))
    autoVerifyTenant config hostname

def finishClaim (plan : Json) (port : Nat) (jobId token deployedSha : String) : Agent Unit := do
  let workspaceId ← queryPostgres config plan
    ("SELECT id FROM workspaces WHERE slug='" ++ text (item "workspaceSlug" plan) ++ "' LIMIT 1;")
  let schemaVersion ← queryPostgres config plan
    "SELECT COALESCE(max(version),0) FROM _sqlx_migrations WHERE success;"
  ensure (fullmatch tenantIdPattern (String.ofList workspaceId)) (.provision
    { code := "workspace_probe_failed", detail := "workspace UUID was not found after bootstrap" })
  ensure (rt.isdigit schemaVersion) (.provision
    { code := "schema_probe_failed", detail := "schema version probe returned a non-integer" })
  match ← ask (HostOp.readDeployment (slugOf plan)) with
  | none => throw (.other "FileNotFoundError")
  | some metadata =>
    let recorded ← require (recordResult rt config plan metadata workspaceId schemaVersion deployedSha jobId)
    ask (HostOp.replaceDeployment (slugOf plan) recorded)
  automate rt config plan port
  let _ ← api rt "POST" ("/provisioner/jobs/" ++ jobId ++ "/succeed")
    (.obj [("workerId", .str config.workerId), ("claimToken", .str token), ("apiPort", .num port),
      ("workspaceId", .str (String.ofList workspaceId)),
      ("schemaVersion", .num ((rt.int schemaVersion).getD 0)), ("deployedSha", .str deployedSha)])

/-- One round of the loop that resolves the images: the record with the digest, and the digest. -/
def pinRole (plan : Json) (desired deployedSha : String) (deployment : Json) (image key : String) :
    Agent (Json × String) := do
  let resolved ← pinnedImageReference rt config (text (item image plan)) deployedSha
  require (verifyReleaseDigestStability deployment desired key resolved)
  checkLease
  pure (deployment.set key (.str resolved), resolved)

/-- The containers of the tenant, up to the point where it is healthy. -/
def startStack (plan : Json) (port : Nat) : Agent Unit := do
  let slug := slugOf plan
  let project := text (item "composeProject" plan)
  ensureEdgeNetwork config
  if isShared plan then ensureSharedDatabase config plan
  else
    let _ ← composeCmd config slug project ["up", "-d", "postgres"] 120
    let _ ← composeCmd config slug project
      ["exec", "-T", "postgres", "sh", "-lc",
        "until pg_isready -U \"$POSTGRES_USER\" -d \"$POSTGRES_DB\"; do sleep 1; done"] 90
  checkLease
  let _ ← composeCmd config slug project ["run", "--rm", "setup"] 240
  let _ ← composeCmd config slug project
    (["up", "-d"] ++ (if isShared plan then ["--remove-orphans"] else []) ++ ["api", "worker"]) 180
  checkLease
  waitHttp port config.healthTimeout
  waitContainerHealthy config slug project "worker" config.healthTimeout
  waitHttp port (min config.healthTimeout 30)
  checkLease

/-- What `process_claim` does while the lease keeper runs. -/
def deploy (plan : Json) (port : Nat) (jobId token desired deployedSha : String) : Agent Unit := do
  let slug := slugOf plan
  let deployment ← ask (HostOp.readDeployment slug)
  let (deployment, apiImage) ← pinRole rt config plan desired deployedSha (deployment.getD (.obj []))
    "apiImage" "apiImageDigest"
  let (deployment, workerImage) ← pinRole rt config plan desired deployedSha deployment
    "workerImage" "workerImageDigest"
  ask (HostOp.replaceDeployment slug deployment)
  ask (HostOp.replaceCompose slug port apiImage workerImage)
  startStack config plan port
  finishClaim rt config plan port jobId token deployedSha

def checkRegion (plan : Json) : Except Exn Unit :=
  if [some 4, some 5].contains (item "schema" plan).asInt then
    let planned := text (item "dataRegion" (item "regionalProfile" plan))
    if config.dataRegion = some planned then .ok ()
    else .error (.provision
      { code := "data_region_mismatch"
        detail := "agent region " ++ config.dataRegion.getD "unclassified" ++ " cannot deploy " ++ planned ++
          " tenant"
        terminal := false })
  else .ok ()

def jobIdOf (job : Json) : String := pyStr rt (orElse (item "id" job) (.str ""))

def invalidClaim (detail : String) : Exn := .provision { code := "invalid_claim", detail }

def processClaim (claim : Json) : Agent Unit := do
  match item "job" claim, item "claimToken" claim with
  | .obj members, .str token =>
    let job := Json.obj members
    let plan ← require (safePlan rt.toRuntime job)
    require (checkRegion config plan)
    let desired := text (item "desiredVersion" plan)
    let deployedSha := String.ofList (desired.toList.drop 4)
    let port ← prepareFiles rt config plan
    deploy rt config plan port (jobIdOf rt job) token desired deployedSha
  | _, _ => throw (invalidClaim "Control Plane returned an invalid claim")

def failClaim (claim : Json) (error : ProvisionError) : Agent Unit := do
  match item "job" claim, item "claimToken" claim with
  | .obj members, .str token =>
    let jobId := jobIdOf rt (.obj members)
    if jobId = "" then pure ()
    else
      match ← outcome (api rt "POST" ("/provisioner/jobs/" ++ jobId ++ "/fail")
        (.obj [("workerId", .str config.workerId), ("claimToken", .str token),
          ("errorCode", .str error.code),
          ("errorDetail", .str (String.ofList (error.detail.toList.take 1000)))])) with
      | .ok _ | .error (.provision _) => pure ()
      | .error (.other exception) => throw (.other exception)
  | _, _ => pure ()

def claimOf (response : Json) : Json :=
  match item "claim" response with
  | .null => if isObject (item "job" response) then response else .null
  | claim => claim

def claimOnce : Agent Bool := do
  let response ← api rt "POST" "/provisioner/jobs/claim"
    (.obj (("workerId", .str config.workerId) ::
      (config.dataRegion.toList.map fun region => ("dataRegion", .str region))))
  match claimOf response with
  | .null => pure false
  | .obj members =>
    let claim := Json.obj members
    match ← outcome (processClaim rt config claim) with
    | .ok _ => pure true
    | .error (.provision error) => do
      if error.terminal then failClaim rt config claim error
      pure true
    | .error (.other exception) => throw (.other exception)
  | _ => throw (invalidClaim "claim response is not an object")

end ControlPlane.Provisioner
