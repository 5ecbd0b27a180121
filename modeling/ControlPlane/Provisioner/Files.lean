import ControlPlane.Provisioner.Host

/-!
# The files of a tenant

What the provisioner writes before it touches Docker, under a lock on the tenant root: a port
recorded in `deployment.json`, the secrets in `.env`, made once, and the settings in `tenant.env`.
-/

namespace ControlPlane.Provisioner

open Interleave
open Interleave.Task (ask require ensure)

/-! ### The port -/

/-- `isinstance(value, int)`; truth values are integers. -/
def pythonInt : Json → Option Int
  | .num n => some n
  | .bool b => some (if b then 1 else 0)
  | _ => none

/-- `document.get("apiPort")` as an integer. -/
def apiPort : Json → Except Exn (Option Int)
  | .obj members => .ok (pythonInt (item "apiPort" (.obj members)))
  | _ => .error (.other "AttributeError")

def portConflict (port : Int) (other : String) : Exn :=
  .provision
    { code := "port_allocation_conflict"
      detail := "tenant port " ++ toString port ++ " is also claimed by " ++ other }

def portPoolExhausted : Exn :=
  .provision
    { code := "port_pool_exhausted", detail := "no free CrowdRelay tenant API port is available" }

def checkConflicts (slug : String) (port : Int) : List String → Agent Unit
  | [] => pure ()
  | other :: others => do
    if other ≠ slug then
      match ← ask (HostOp.readDeployment other) with
      | some document =>
        let recorded ← require (apiPort document)
        ensure (recorded ≠ some port) (portConflict port other)
      | none => pure ()
    checkConflicts slug port others

def allocatedPorts : List String → Agent (List Int)
  | [] => pure []
  | slug :: slugs => do
    let recorded ← match ← ask (HostOp.readDeployment slug) with
      | some document => require (apiPort document)
      | none => pure none
    let ports ← allocatedPorts slugs
    pure (recorded.toList ++ ports)

def firstFree (reserved : List Int) : List Nat → Agent Nat
  | [] => throw portPoolExhausted
  | port :: ports => do
    if (port : Int) ∈ reserved then firstFree reserved ports
    else if ← ask (HostOp.portInUse port) then firstFree reserved ports
    else pure port

/-- The tenant's own port, if it has recorded one that is in the range. -/
def keptPort (config : Config) (slug : String) : Agent (Option Nat) := do
  match ← ask (HostOp.readDeployment slug) with
  | some document =>
    match ← require (apiPort document) with
    | some value =>
      if config.portStart ≤ value ∧ value ≤ config.portEnd then
        let others ← ask HostOp.globDeployments
        checkConflicts slug value others
        pure (some value.toNat)
      else pure none
    | none => pure none
  | none => pure none

def choosePort (config : Config) (slug : String) : Agent Nat := do
  match ← keptPort config slug with
  | some port => pure port
  | none =>
    let slugs ← ask HostOp.globDeployments
    let reserved ← allocatedPorts slugs
    firstFree reserved (List.range' config.portStart (config.portEnd + 1 - config.portStart))

/-! ### The secrets -/

def assign (key : String) (value : List Char) : List Char := key.toList ++ '=' :: value

def envText (values : List (String × List Char)) : List Char :=
  values.flatMap fun entry => assign entry.1 entry.2 ++ ['\n']

def chars (value : Json) : List Char := (value.asStr.getD "").toList

/-- The names of the tenant's database (and role) and of its host. -/
def database (plan : Json) : List Char × List Char :=
  if (item "placement" plan).asStr = some "shared_pg" then
    (chars (item "database" (item "sharedPg" plan)), chars (item "host" (item "sharedPg" plan)))
  else ("crowdrelay".toList, "postgres".toList)

def databaseUrl (plan : Json) (password : List Char) : List Char :=
  let (name, host) := database plan
  "postgres://".toList ++ name ++ ':' :: password ++ '@' :: host ++ ":5432/".toList ++ name

def placementValues (plan : Json) (password : List Char) : List (String × List Char) :=
  [("POSTGRES_DB", (database plan).1), ("POSTGRES_USER", (database plan).1),
    ("CROWDRELAY_DATABASE_URL", databaseUrl plan password)]

variable (rt : Runtime) (config : Config)

def deriveAreaManagementToken (masterKey tenantId : String) : List Char :=
  rt.hexdigest masterKey ("crowdrelay-area-admin-v1:" ++ tenantId)

def deriveManagementToken (masterKey tenantId : String) : List Char :=
  rt.hexdigest masterKey ("crowdrelay-control-plane-v1:" ++ tenantId)

def tenantIdOf (plan : Json) : String := (item "tenantId" plan).asStr.getD ""

def managementValues (plan : Json) : List (String × List Char) :=
  (if config.areaManagementMasterKey = "" then [] else
    [("CROWDRELAY_CONTROL_PLANE_AREA_API_KEY",
      deriveAreaManagementToken rt config.areaManagementMasterKey (tenantIdOf plan))]) ++
  if config.managementMasterKey = "" then [] else
    [("CROWDRELAY_CONTROL_PLANE_API_KEY",
      deriveManagementToken rt config.managementMasterKey (tenantIdOf plan))]

structure Secrets where
  dbPassword : Token
  responseSecret : Token
  adminKey : Token
  staffKey : Token
  qrSecret : Token

def secretValues (plan : Json) (secrets : Secrets) : List (String × List Char) :=
  [("POSTGRES_DB", (database plan).1), ("POSTGRES_USER", (database plan).1),
    ("POSTGRES_PASSWORD", secrets.dbPassword.text),
    ("CROWDRELAY_DATABASE_URL", databaseUrl plan secrets.dbPassword.text),
    ("CROWDRELAY_RESPONSE_ENCRYPTION_SECRET", secrets.responseSecret.text),
    ("CROWDRELAY_ADMIN_API_KEY", secrets.adminKey.text),
    ("CROWDRELAY_STAFF_API_KEY", secrets.staffKey.text),
    ("CROWDRELAY_QR_SIGNING_SECRET", secrets.qrSecret.text)] ++ managementValues rt config plan

def createSecretEnv (plan : Json) : Agent (List Char) := do
  let dbPassword ← ask (HostOp.tokenUrlsafe 36)
  let responseSecret ← ask (HostOp.tokenUrlsafe 48)
  let adminKey ← ask (HostOp.tokenUrlsafe 36)
  let staffKey ← ask (HostOp.tokenUrlsafe 36)
  let qrSecret ← ask (HostOp.tokenUrlsafe 48)
  pure (envText (secretValues rt config plan
    { dbPassword, responseSecret, adminKey, staffKey, qrSecret }))

def writeChars (slug : String) : List Char → Agent Unit
  | [] => pure ()
  | c :: rest => do
    ask (HostOp.writeEnv slug c)
    writeChars slug rest

/-- A file that exists is left alone, whatever is in it. -/
def writeOnce (slug : String) (content : List Char) : Agent Unit := do
  match ← ask (HostOp.readEnv slug) with
  | some _ => pure ()
  | none =>
    ask (HostOp.createEnv slug)
    writeChars slug content

def valuesOf (key : String) (text : List Char) : List (List Char) :=
  (Python.splitlines text).filterMap fun line =>
    if (assign key []).isPrefixOf line then some (line.drop (assign key []).length) else none

/-- `read_env_value` of a text. -/
def envValue (key : String) (text : List Char) : List Char :=
  Python.strip ((valuesOf key text).head?.getD [])

def lineKey (line : List Char) : List Char := Python.strip (line.takeWhile (· ≠ '='))

def convergeLine (expected : List (String × List Char)) (line : List Char) : List Char :=
  match expected.find? fun entry => entry.1.toList = lineKey line with
  | some entry => assign entry.1 entry.2
  | none => line

/-- The lines that were there, brought up to date, and those that were missing. -/
def converged (expected : List (String × List Char)) (lines : List (List Char)) : List (List Char) :=
  lines.map (convergeLine expected) ++
    (expected.filter fun entry => !(lines.map lineKey).contains entry.1.toList).map fun entry =>
      assign entry.1 entry.2

def joinLines (lines : List (List Char)) : List Char := ['\n'].intercalate lines ++ ['\n']

def missingPassword : Exn := invalidPlan "tenant .env is missing POSTGRES_PASSWORD"

def convergeSecretEnv (slug : String) (plan : Json) : Agent Unit := do
  match ← ask (HostOp.readEnv slug) with
  | none => throw missingPassword
  | some text =>
    let password := envValue "POSTGRES_PASSWORD" text
    ensure (password ≠ []) missingPassword
    match ← ask (HostOp.readEnv slug) with
    | none => throw (.other "FileNotFoundError")
    | some text =>
      let lines := Python.splitlines text
      let out := converged (placementValues plan password) lines
      if out ≠ lines then ask (HostOp.replaceEnv slug (joinLines out))

/-- Both kinds of management token are kept in `.env` in one way. -/
def ensureSecret (slug key : String) (expected : List Char) (unreadable mismatch : ProvisionError) :
    Agent Unit := do
  match ← ask (HostOp.readEnv slug) with
  | none => throw (.provision unreadable)
  | some text =>
    match valuesOf key text with
    | [] =>
      let ended := if text.getLast? = some '\n' then text else text ++ ['\n']
      ask (HostOp.replaceEnv slug (ended ++ assign key expected ++ ['\n']))
    | existing => ensure (existing = [expected]) (.provision mismatch)

def ensureAreaManagementSecret (slug : String) (plan : Json) : Agent Unit :=
  if config.areaManagementMasterKey = "" then pure ()
  else
    ensureSecret slug "CROWDRELAY_CONTROL_PLANE_AREA_API_KEY"
      (deriveAreaManagementToken rt config.areaManagementMasterKey (tenantIdOf plan))
      { code := "area_management_secret_unreadable", detail := "tenant secret env could not be read" }
      { code := "area_management_secret_mismatch"
        detail := "existing tenant AREA management token does not match this Control Plane master key" }

def ensureManagementSecret (slug : String) (plan : Json) : Agent Unit :=
  if config.managementMasterKey = "" then pure ()
  else
    ensureSecret slug "CROWDRELAY_CONTROL_PLANE_API_KEY"
      (deriveManagementToken rt config.managementMasterKey (tenantIdOf plan))
      { code := "management_secret_unreadable", detail := "tenant secret env could not be read" }
      { code := "management_secret_mismatch"
        detail := "existing tenant operations token does not match this Control Plane master key" }

/-! ### The settings -/

/-- `document[name]`. -/
def member (name : String) (document : Json) : Except Exn Json :=
  match document.get name with
  | some value => .ok value
  | none => .error (.other "KeyError")

def membersAs (names : List (String × String)) (document : Json) : Except Exn (List (String × Json)) :=
  names.mapM fun entry => do pure (entry.1, ← member entry.2 document)

def profileVariables : List (String × String) :=
  [("CROWDRELAY_TENANT_REGION", "region"), ("CROWDRELAY_TENANT_LOCALE", "locale"),
    ("CROWDRELAY_TENANT_TIMEZONE", "timezone"), ("CROWDRELAY_TENANT_CURRENCY", "currency"),
    ("CROWDRELAY_TENANT_DATE_FORMAT", "dateFormat"),
    ("CROWDRELAY_TENANT_NUMBER_FORMAT", "numberFormat"),
    ("CROWDRELAY_TENANT_DATA_REGION", "dataRegion")]

def paletteVariables : List (String × String) :=
  [("CROWDRELAY_TENANT_COLOR_BACKGROUND", "surface"),
    ("CROWDRELAY_TENANT_COLOR_SURFACE", "surfaceElevated"),
    ("CROWDRELAY_TENANT_COLOR_MUTED", "textMuted"), ("CROWDRELAY_TENANT_COLOR_ACCENT", "primary"),
    ("CROWDRELAY_TENANT_COLOR_TEXT", "text"), ("CROWDRELAY_TENANT_COLOR_DANGER", "danger"),
    ("CROWDRELAY_TENANT_COLOR_SUCCESS", "success")]

def providerVariables : List (String × String) :=
  [("CROWDRELAY_BANDSINTOWN_API_KEY", "bandsintown"), ("CROWDRELAY_YOUTUBE_API_KEY", "youtube"),
    ("CROWDRELAY_SPOTIFY_CLIENT_ID", "spotifyClientId"),
    ("CROWDRELAY_SPOTIFY_CLIENT_SECRET", "spotifyClientSecret"),
    ("CROWDRELAY_FACEBOOK_PAGE_ACCESS_TOKEN", "facebookPageToken"),
    ("CROWDRELAY_TIKTOK_CLIENT_KEY", "tiktokClientKey"),
    ("CROWDRELAY_TIKTOK_CLIENT_SECRET", "tiktokClientSecret"), ("CROWDRELAY_LASTFM_API_KEY", "lastfm")]

def orElse (value other : Json) : Json := if truthy value then value else other

def fixedVariables : List (String × Json) :=
  [("CROWDRELAY_ENV", .str "production"), ("CROWDRELAY_BIND_ADDR", .str "0.0.0.0:8080"),
    ("CROWDRELAY_DATABASE_MAX_CONNECTIONS", .str "8"),
    ("CROWDRELAY_DATABASE_CONNECT_TIMEOUT_MS", .str "5000"),
    ("CROWDRELAY_DATABASE_PING_TIMEOUT_MS", .str "2000"),
    ("CROWDRELAY_DATABASE_OPERATION_TIMEOUT_MS", .str "60000"),
    ("CROWDRELAY_DATABASE_LOCK_TIMEOUT_MS", .str "1000"),
    ("CROWDRELAY_REDIRECT_REFRESH_INTERVAL_MS", .str "15000"),
    ("CROWDRELAY_CLICK_CHANNEL_CAPACITY", .str "2048"), ("CROWDRELAY_CLICK_BATCH_SIZE", .str "100"),
    ("CROWDRELAY_CLICK_FLUSH_INTERVAL_MS", .str "500"),
    ("CROWDRELAY_EVENT_REMINDER_OFFSETS_MINUTES", .str "1440,120"),
    ("CROWDRELAY_EVENT_REMINDER_POLL_INTERVAL_MS", .str "60000"),
    ("CROWDRELAY_AUTOPILOT_ENABLED", .str "false"),
    ("CROWDRELAY_AUTOPILOT_POLL_INTERVAL_MS", .str "60000"),
    ("CROWDRELAY_ADMIN_MEMBER_EMAIL", .str "admin@example.invalid"),
    ("CROWDRELAY_STAFF_MEMBER_EMAIL", .str "staff@example.invalid"),
    ("CROWDRELAY_QR_TTL_SECONDS", .str "30"), ("CROWDRELAY_REQUIRE_DOUBLE_OPT_IN", .str "true"),
    ("CROWDRELAY_RANDOM_DRAWS_ENABLED", .str "false"),
    ("CROWDRELAY_BOOTSTRAP_FILE", .str "/run/crowdrelay/bootstrap.json"),
    ("RUST_LOG", .str "info,crowdrelay=info")]

/-- The variables of `tenant.env` with the values they are formatted from. -/
def createRuntimeEnv (plan : Json) : Except Exn (List (String × Json)) := do
  let profile ← match item "regionalProfile" plan with
    | .obj members => membersAs profileVariables (.obj members)
    | _ => pure []
  let palette ← match item "brandingPalette" plan with
    | .obj members => membersAs paletteVariables (.obj members)
    | _ => pure []
  let providers := providerVariables.filterMap fun entry =>
    match item entry.2 (item "providerKeys" plan) with
    | .str value =>
      if Python.strip value.toList = [] then none
      else some (entry.1, Json.str (String.ofList (Python.strip value.toList)))
    | _ => none
  let team := match item "teamMembers" plan with
    | .arr (first :: members) => [("CROWDRELAY_TEAM_MEMBERS_JSON", Json.arr (first :: members))]
    | _ => []
  pure (fixedVariables ++ [("CROWDRELAY_ALLOWED_ORIGINS", item "allowedOrigins" plan),
      ("CROWDRELAY_WORKSPACE_SLUG", item "workspaceSlug" plan),
      ("CROWDRELAY_TENANT_DISPLAY_NAME", item "displayName" plan),
      ("CROWDRELAY_PUBLIC_SITE_BASE_URL", orElse (item "publicSiteBaseUrl" plan) (.str "")),
      ("CROWDRELAY_PUBLIC_ORIGIN",
        orElse (item "publicSiteBaseUrl" plan) (item "crowdRelayBaseUrl" plan)),
      ("CROWDRELAY_DEFAULT_COUNTRY_CODE", item "defaultCountryCode" plan)] ++
    profile ++ palette ++ providers ++ team)

/-! ### `prepare_files` -/

def slugOf (plan : Json) : String := (item "tenantSlug" plan).asStr.getD ""

/-- The directory of a slug is a child of the root. -/
def insideRoot (slug : String) : Bool :=
  slug ≠ "" && slug ≠ "." && slug ≠ ".." && !slug.toList.contains '/'

/-- `deployment.update(…)` with what the plan and the port say. -/
def recordPlan (plan : Json) (port : Nat) (deployment : Json) : Json :=
  ((((((deployment.set "schema" (.num 1)).set "tenantSlug" (item "tenantSlug" plan)).set
    "composeProject" (item "composeProject" plan)).set "apiPort" (.num port)).set
    "desiredVersion" (item "desiredVersion" plan)).set
    "crowdRelayBaseUrl" (item "crowdRelayBaseUrl" plan))

def prepareFiles (plan : Json) : Agent Nat := do
  let slug := slugOf plan
  ensure (insideRoot slug) (invalidPlan "tenant root traversal rejected")
  ask (HostOp.makeTenantDir slug)
  let port ← choosePort config slug
  let content ← createSecretEnv rt config plan
  writeOnce slug content
  convergeSecretEnv slug plan
  ensureAreaManagementSecret rt config slug plan
  ensureManagementSecret rt config slug plan
  let values ← require (createRuntimeEnv plan)
  ask (HostOp.replaceTenantEnv slug values)
  ask (HostOp.replaceBootstrap slug (item "displayName" plan))
  let recorded ← ask (HostOp.readDeployment slug)
  ask (HostOp.replaceDeployment slug (recordPlan plan port (recorded.getD (.obj []))))
  pure port

end ControlPlane.Provisioner
