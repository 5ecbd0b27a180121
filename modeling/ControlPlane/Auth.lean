import ControlPlane.Pattern
import ControlPlane.Validation

/-!
# Operator authentication

Who is calling, and which tenant they may reach. The guard reads the slug from the path as it was
sent, the handler gets it from the router, percent-decoded.
-/

namespace ControlPlane.Auth

/-! ### Requests -/

inductive Method where
  | get
  | head
  | options
  | post
  | put
  | patch
  | delete
  | connect
  | trace
  | extension (name : String)
deriving DecidableEq, Repr

structure HeaderValue where
  bytes : List UInt8
deriving DecidableEq

/-- Visible characters and tabs only. -/
def HeaderValue.toStr (value : HeaderValue) : Option String :=
  if value.bytes.all fun b => 32 ≤ b && b < 127 || b = 9 then
    some (String.ofList (value.bytes.map fun b => Char.ofNat b.toNat))
  else none

/-- Header names are in lower case. -/
structure Headers where
  fields : List (String × HeaderValue)

def Headers.getAll (headers : Headers) (name : String) : List HeaderValue :=
  headers.fields.filterMap fun (field, value) => if field = name then some value else none

def Headers.get (headers : Headers) (name : String) : Option HeaderValue := (headers.getAll name).head?

structure Request where
  method : Method
  /-- Without the query; a nested router has taken `/api/v1` away. -/
  path : String
  headers : Headers

/-! ### Tables -/

def slugPattern : RegularExpression Char :=
  let head := Pattern.range 'a' 'z' ++ Pattern.range '0' '9'
  Pattern.oneOf head * Pattern.between 1 62 (Pattern.oneOf (head ++ ['-']))

structure TenantRow where
  id : Uuid
  slug : String
  slug_ck : Pattern.fullmatch slugPattern slug = true

structure AccountRow where
  id : Uuid
  username : String
  role : String
  tenantId : Option Uuid
  active : Bool
  role_scope_ck : (role = "platform_admin" ∨ role = "platform_viewer") ∧ tenantId = none ∨
    role = "tenant_operator" ∧ tenantId ≠ none

abbrev TokenHash := List UInt8

structure SessionRow where
  tokenHash : TokenHash
  accountId : Uuid
  expiresAt : Instant
  isMobile : Bool

structure AppState where
  adminTokenHash : TokenHash
  /-- SHA-256 of a token. -/
  hashToken : String → TokenHash
  tenants : List TenantRow
  slug_unique : tenants.Pairwise fun one other => one.slug ≠ other.slug
  accounts : List AccountRow
  sessions : List SessionRow

def AppState.tenantBySlug (state : AppState) (slug : String) : Except ApiError TenantRow :=
  match state.tenants.find? fun tenant => tenant.slug = slug with
  | some tenant => .ok tenant
  | none => .error .notFound

/-- `store.resolve_session`: the account, and whether the session is a mobile one. -/
def AppState.resolveSession (state : AppState) (now : Instant) (tokenHash : TokenHash) :
    Except ApiError (AccountRow × Bool) :=
  let found := state.sessions.findSome? fun session =>
    if session.tokenHash = tokenHash ∧ now < session.expiresAt then
      (state.accounts.find? fun account => account.id = session.accountId && account.active).map
        fun account => (account, session.isMobile)
    else none
  match found with
  | some account => .ok account
  | none => .error .unauthorized

/-! ### Identities -/

inductive Role where
  | platformAdmin
  | platformViewer
  | tenantOperator
deriving DecidableEq, Repr

inductive Identity where
  | platformAdmin
  | account (username : String) (role : Role) (tenantId : Option Uuid) (viaSession mobileSession : Bool)
deriving DecidableEq, Repr

namespace Identity

def isPlatformLevel : Identity → Bool
  | platformAdmin => true
  | account _ role _ _ _ => role = .platformAdmin || role = .platformViewer

def isReadOnly : Identity → Bool
  | platformAdmin => false
  | account _ role _ _ _ => role = .platformViewer

def tenantScope : Identity → Option Uuid
  | platformAdmin => none
  | account _ _ tenantId _ _ => tenantId

def viaSession : Identity → Bool
  | platformAdmin => false
  | account _ _ _ viaSession _ => viaSession

end Identity

def sessionCookie : String := "crowdrelay_cp_session"

def bearer (headers : Headers) : Option String :=
  ((headers.get "authorization").bind HeaderValue.toStr).bind (Text.strip "Bearer ")
    |>.filter (· ≠ "")

def cookiePair (name pair : String) : Option String :=
  (Text.splitOnce '=' (Text.trim pair)).bind fun (key, token) =>
    if Text.trim key = name ∧ token ≠ "" then some token else none

def cookieValue (headers : Headers) (name : String) : Option String :=
  (headers.getAll "cookie").findSome? fun value =>
    value.toStr.bind fun text =>
      (text.toList.splitOn ';').findSome? fun pair => cookiePair name (String.ofList pair)

def roleOf : String → Role
  | "platform_admin" => .platformAdmin
  | "platform_viewer" => .platformViewer
  | _ => .tenantOperator

/-- The bearer first; a wrong one is never made good by a cookie. -/
def resolveIdentity (state : AppState) (now : Instant) (headers : Headers) : Except ApiError Identity :=
  match bearer headers with
  | some token =>
    if state.hashToken token = state.adminTokenHash then .ok .platformAdmin else .error .unauthorized
  | none =>
    match cookieValue headers sessionCookie with
    | none => .error .unauthorized
    | some token => do
      let (account, isMobile) ← state.resolveSession now (state.hashToken token)
      pure (.account account.username (roleOf account.role) account.tenantId true isMobile)

def safeMethod (method : Method) : Bool := method = .get || method = .head || method = .options

def missingRequestId (headers : Headers) : Bool :=
  match (headers.get "x-request-id").bind HeaderValue.toStr with
  | none => true
  | some value => value = ""

def authenticate (state : AppState) (now : Instant) (request : Request) : Except ApiError Identity := do
  let identity ← resolveIdentity state now request.headers
  if identity.isReadOnly && !safeMethod request.method then
    throw (.forbidden "read-only account cannot perform mutations")
  if identity.viaSession && !safeMethod request.method && missingRequestId request.headers then
    throw (.forbidden "missing x-request-id")
  pure identity

def tenantSlugFromPath (path : String) : Option String :=
  match ((path.toList.splitOn '/').filter (· ≠ [])).map String.ofList with
  | "tenants" :: rest => rest.head?
  | "api" :: "v1" :: "tenants" :: rest => rest.head?
  | _ => none

def requireTenantAccess (state : AppState) (identity : Identity) (path : String) :
    Except ApiError Unit := do
  let some slug := tenantSlugFromPath path | throw (.invalidInput "missing tenant scope")
  let slug ← Validation.slug slug
  if !identity.isPlatformLevel then
    if let some scope := identity.tenantScope then
      let tenant ← state.tenantBySlug slug
      if scope ≠ tenant.id then throw .notFound

def letThrough (state : AppState) (now : Instant) (request : Request) : Except ApiError Identity := do
  let identity ← authenticate state now request
  requireTenantAccess state identity request.path
  pure identity

/-! ### The router -/

/-- The segment a route `/tenants/{slug}…` takes for its slug. -/
def slugSegment (path : String) : Option String :=
  let rest := (Text.strip "/tenants/" path).or (Text.strip "/api/v1/tenants/" path)
  (rest.map fun rest => String.ofList (rest.toList.takeWhile (· ≠ '/'))).filter (· ≠ "")

/-- What the handler gets; a parameter that is not text is refused. -/
def slugParameter (path : String) : Option String := (slugSegment path).bind Text.percentDecode

/-! ### Handlers -/

/-- Handlers that look the slug up as it comes. -/
def resolvesExactly (state : AppState) (slug : String) : Except ApiError TenantRow :=
  state.tenantBySlug slug

/-- Handlers that normalise it first. -/
def resolvesNormalised (state : AppState) (raw : String) : Except ApiError TenantRow := do
  let slug ← Validation.slug raw
  state.tenantBySlug slug

end ControlPlane.Auth
