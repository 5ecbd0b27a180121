import ControlPlane.Interleave.Alone
import ControlPlane.Provisioner.Plan

/-!
# The provisioner's host

The agent keeps one directory per tenant, starts Docker and a few scripts, and talks to the control
plane and a DNS provider. The files are the state; the rest is up to the environment.
-/

namespace ControlPlane.Provisioner

open Python (Exc)

/-- The agent's settings, as they have passed its checks at the start. -/
structure Config where
  portStart : Nat
  portEnd : Nat
  ports : 1024 ≤ portStart ∧ portStart ≤ portEnd ∧ portEnd ≤ 65535
  root : String := "/srv/crowdrelay-tenants"
  /-- Empty when the key is not configured. -/
  areaManagementMasterKey : String := ""
  managementMasterKey : String := ""
  dataRegion : Option String := none
  workerId : String := "worker"
  healthTimeout : Nat := 120
  docker : String := "docker"
  edgeNetwork : String := "crowdrelay-shared"
  sharedPgClusters : List String := ["crowdrelay-tenants-pg"]
  autoDns : Bool := false
  netlifyDnsZone : String := ""
  autoEdge : Bool := false
  edgeScript : String := ""
  autoVerify : Bool := false
  publicIp : String := ""

/-- The parts of the interpreter and its libraries that the agent's functions rest on. -/
structure Runtime extends Python.Runtime where
  /-- `hmac.new(key, message, sha256).hexdigest()`. -/
  hexdigest : String → String → List Char
  hexdigest_hex : ∀ key message, hexdigest key message ≠ [] ∧
    ∀ c ∈ hexdigest key message, c ∈ hexdigit
  /-- `json.loads` of a text. -/
  loads : List Char → Except Exc Json
  /-- `str` of a JSON value. -/
  str : Json → String
  isdigit : List Char → Bool
  /-- `int` of a text, nothing where it raises `ValueError`. -/
  int : List Char → Option Int
  /-- `ipaddress.ip_address(address).is_global`. -/
  isGlobal : String → Bool

/-- A value of `secrets.token_urlsafe`. -/
structure Token where
  text : List Char
  ne_nil : text ≠ []
  urlsafe : ∀ c ∈ text, c ∈ alphanumeric ++ ['_', '-']

/-- What came of a program started by `run_bounded`: it could not be started, it was killed after its
time (and the wait for its end may run out too), or it exited. -/
inductive Ran where
  | unstarted (exception : String)
  | killed (ended : Bool)
  | exited (returncode : Int) (output : List Char)

/-- What came of `subprocess.run`. -/
inductive Captured where
  | raised (exception : String)
  | exited (returncode : Int) (stderr : List Char)

/-- What an API request brought: an exception on the way, too long a body, what `json.loads` makes of the
body, or an HTTP error whose own body may be unreadable. -/
inductive Fetched where
  | raised (exception : Exc)
  | tooLarge
  | body (loaded : Except Exc Json)
  | httpError (code : Nat) (body : Except Exc (Except Exc Json))

structure ApiRequest where
  method : String
  path : String
  payload : Json

inductive HostOp where
  | makeTenantDir (slug : String)
  | globDeployments
  | readDeployment (slug : String)
  | replaceDeployment (slug : String) (document : Json)
  | readEnv (slug : String)
  /-- `os.open` with `O_CREAT | O_EXCL`. -/
  | createEnv (slug : String)
  | writeEnv (slug : String) (c : Char)
  | replaceEnv (slug : String) (text : List Char)
  | replaceTenantEnv (slug : String) (values : List (String × Json))
  | replaceBootstrap (slug : String) (workspaceName : Json)
  | replaceCompose (slug : String) (port : Nat) (apiImage workerImage : String)
  | portInUse (port : Nat)
  | tokenUrlsafe (bytes : Nat)
  /-- Whether `time.monotonic()` is before a loop's deadline. -/
  | beforeDeadline
  | runBounded (command : List String)
  | subprocessRun (command : List String)
  | leaseLost
  | probeReady (port : Nat)
  | api (request : ApiRequest)
  /-- A request to the DNS provider: an exception, or the document it answers. -/
  | netlify (method path : String)
  | gethostbyname (hostname : String)
  | outboundAddress
  | edgeScriptExists
  | verifyTenant (hostname : String)

abbrev HostOp.Result : HostOp → Type
  | .makeTenantDir _ => Unit
  | .globDeployments => List String
  | .readDeployment _ => Option Json
  | .replaceDeployment _ _ => Unit
  | .readEnv _ => Option (List Char)
  | .createEnv _ => Unit
  | .writeEnv _ _ => Unit
  | .replaceEnv _ _ => Unit
  | .replaceTenantEnv _ _ => Unit
  | .replaceBootstrap _ _ => Unit
  | .replaceCompose _ _ _ _ => Unit
  | .portInUse _ => Bool
  | .tokenUrlsafe _ => Token
  | .beforeDeadline => Bool
  | .runBounded _ => Ran
  | .subprocessRun _ => Captured
  | .leaseLost => Option ProvisionError
  | .probeReady _ => Except String Nat
  | .api _ => Fetched
  | .netlify _ _ => Except String Json
  | .gethostbyname _ => Except Exc String
  | .outboundAddress => Option String
  | .edgeScriptExists => Bool
  | .verifyTenant _ => Unit

structure Tenant where
  env : Option (List Char) := none
  deployment : Option Json := none

structure World where
  tenants : AList fun _ : String => Tenant
  inUse : Nat → Bool

namespace World

def tenant (w : World) (slug : String) : Tenant := (w.tenants.lookup slug).getD {}

def setTenant (w : World) (slug : String) (tenant : Tenant) : World :=
  { w with tenants := w.tenants.insert slug tenant }

end World

abbrev Answers : Type := (o : HostOp) → o.Result

def exec (w : World) (answers : Answers) : (o : HostOp) → o.Result × World
  | .makeTenantDir slug => ((), w.setTenant slug (w.tenant slug))
  | .globDeployments => (w.tenants.keys.filter fun slug => (w.tenant slug).deployment.isSome, w)
  | .readDeployment slug => ((w.tenant slug).deployment, w)
  | .replaceDeployment slug document =>
    ((), w.setTenant slug { w.tenant slug with deployment := some document })
  | .readEnv slug => ((w.tenant slug).env, w)
  | .createEnv slug => ((), w.setTenant slug { w.tenant slug with env := some [] })
  | .writeEnv slug c =>
    ((), w.setTenant slug { w.tenant slug with env := some ((w.tenant slug).env.getD [] ++ [c]) })
  | .replaceEnv slug text => ((), w.setTenant slug { w.tenant slug with env := some text })
  | .portInUse port => (w.inUse port, w)
  | o => (answers o, w)

abbrev Agent (α : Type) : Type := Interleave.Task HostOp HostOp.Result Exn α

end ControlPlane.Provisioner
