import ControlPlane.Interleave.Run
import ControlPlane.Validation

/-!
# Read models and their cache

A read model fetches its sections one by one and keeps the projection in a map that all requests
share; a mutation drops what is kept for its tenant. Each access to the map is under its lock.

Of a document only the number of mutations applied when it was fetched is kept, and a projection is
the list of its sections.
-/

namespace ControlPlane.ReadModels

open Interleave Interleave.Task

def readModelCacheTtl : Int := seconds 5

/-- A section that could not be read shows nothing of the tenant. -/
structure Section where
  slug : String
  path : String
  version : Option Nat
deriving DecidableEq, Repr

abbrev Value := List Section

structure Entry where
  storedAt : Instant
  value : Value

structure World where
  clock : Instant
  cache : String → Option Entry
  tenants : List String
  version : String → Nat

inductive Mutation where
  | change
  | create
  | remove
deriving DecidableEq

inductive Op where
  | lookup (key : String)
  /-- Under the write lock: look again, and drop what has expired. -/
  | evict (key : String)
  | store (key : String) (value : Value)
  | invalidate (slug : String)
  | now
  /-- Under the write lock, with a time that was read before it was taken. -/
  | prune (now : Instant)
  | fetch (slug path : String)
  | listTenants
  /-- A query that is about no tenant. -/
  | platform (table : String)
  /-- The order in which concurrent fetches are answered. -/
  | arrange (sections : List (String × String))
  | apply (mutation : Mutation) (slug : String)
deriving DecidableEq

@[reducible]
def Op.Result : Op → Type
  | .lookup _ | .evict _ => Option Value
  | .store _ _ | .invalidate _ | .prune _ => Unit
  | .now => Instant
  | .fetch _ _ => Option Nat
  | .listTenants => Option (List (String × Nat))
  | .platform _ | .apply _ _ => Bool
  | .arrange _ => List (String × String)

structure Choice where
  answered : Bool
  order : List (String × String)

def Entry.fresh (entry : Entry) (clock : Instant) : Bool := clock - entry.storedAt < readModelCacheTtl

def hit (world : World) (key : String) : Option Value :=
  ((world.cache key).filter (·.fresh world.clock)).map (·.value)

def ownedBy (slug key : String) : Bool := (slug ++ ":").toList.isPrefixOf key.toList

def commandCenterKey : String := "command-center"

/-- The section a fan-out over all tenants begins with for each of them. -/
def targetPath : String := "target"

/-- Sections are asked for once the target of their tenant is known. -/
def targetsFirst (sections : List (String × String)) : List (String × String) → List String → Bool
  | [], _ => true
  | (slug, path) :: rest, known =>
    if path = targetPath then targetsFirst sections rest (slug :: known)
    else (slug ∈ known || (slug, targetPath) ∉ sections) && targetsFirst sections rest known

def Mutation.enrol (slug : String) : Mutation → List String → List String
  | .change, tenants => tenants
  | .create, tenants => slug :: tenants
  | .remove, tenants => tenants.erase slug

/-- A tenant is created once, and only an existing one is changed or removed. -/
def Mutation.possible (slug : String) (mutation : Mutation) (tenants : List String) : Bool :=
  decide (slug ∈ tenants) != decide (mutation = .create)

def exec (world : World) (choice : Choice) : (o : Op) → Option (o.Result × World)
  | .lookup key => some (hit world key, world)
  | .evict key =>
    match hit world key with
    | some value => some (some value, world)
    | none => some (none, { world with cache := Function.update world.cache key none })
  | .store key value =>
    some ((), { world with cache := Function.update world.cache key (some ⟨world.clock, value⟩) })
  | .invalidate slug =>
    some ((), { world with
      cache := fun key => if ownedBy slug key ∨ key = commandCenterKey then none else world.cache key })
  | .now => some (world.clock, world)
  | .prune now =>
    some ((), { world with
      cache := fun key => (world.cache key).filter fun entry =>
        now - entry.storedAt < readModelCacheTtl * 2 })
  | .fetch slug _ =>
    some (if choice.answered && slug ∈ world.tenants then some (world.version slug) else none, world)
  | .listTenants =>
    some (if choice.answered then some (world.tenants.map fun slug => (slug, world.version slug))
      else none, world)
  | .platform _ => some (choice.answered, world)
  | .arrange sections =>
    if choice.order.isPerm sections && targetsFirst sections choice.order [] then
      some (choice.order, world)
    else none
  | .apply mutation slug =>
    if choice.answered && mutation.possible slug world.tenants then
      some (true, { world with
        tenants := mutation.enrol slug world.tenants
        version := Function.update world.version slug (world.version slug + 1) })
    else some (false, world)

/-! ### The cache -/

inductive ReadError where
  | refused (e : ApiError)
  /-- The tenant or the database did not answer. -/
  | failed
  | contractMismatch
  | allSectionsFailed

abbrev Reading := Task Op Op.Result ReadError

def cacheGet (key : String) : Reading (Option Value) := do
  match ← ask (Op.lookup key) with
  | some value => pure (some value)
  | none => ask (Op.evict key)

def cacheSet (key : String) (value : Value) : Reading Unit := ask (Op.store key value)

def invalidateTenant (slug : String) : Reading Unit := ask (Op.invalidate slug)

def pruneCache : Reading Unit := do
  let now ← ask Op.now
  ask (Op.prune now)

/-- What is kept, or else what the body makes of fresh sections. -/
def cached (key : String) (body : Reading Value) : Reading Value := do
  match ← cacheGet key with
  | some value => pure value
  | none => body

/-! ### Sections -/

def fetchSection (slug path : String) : Reading Section := do
  let version ← ask (Op.fetch slug path)
  pure { slug := slug, path := path, version := version }

def required (slug path : String) : Reading Section := do
  let found ← fetchSection slug path
  ensure (found.version.isSome = true) .failed
  pure found

/-- `area_routes::target`. -/
def target (slug : String) : Reading Unit := do
  let _ ← required slug "tenant"
  let _ ← required slug "management-url"

def fetchEach : List (String × String) → Reading Value
  | [] => pure []
  | (slug, path) :: rest => do
    let found ← fetchSection slug path
    let others ← fetchEach rest
    pure (found :: others)

def fanOut (slug : String) (paths : List String) : Reading Value := do
  let order ← ask (Op.arrange (paths.map fun path => (slug, path)))
  fetchEach order

def projectSections (sections : Value) : Reading Value := do
  ensure (sections.any (·.version.isSome) = true) .allSectionsFailed
  pure sections

def validSlug (raw : String) : Reading String :=
  require ((Validation.slug raw).mapError .refused)

/-! ### Read models of one tenant -/

def readModel (view : String) (paths : List String) (rawSlug : String) : Reading Value := do
  let slug ← validSlug rawSlug
  let key := slug ++ ":" ++ view
  cached key do
    target slug
    let sections ← fanOut slug paths
    let projected ← projectSections sections
    cacheSet key projected
    pure projected

def portfolio : String → Reading Value :=
  readModel "portfolio" ["/v1/control-plane/portfolio/overview",
    "/v1/control-plane/portfolio/amplification", "/v1/control-plane/fanbases"]

def audience : String → Reading Value :=
  readModel "audience" ["/v1/control-plane/audience/overview",
    "/v1/control-plane/audience/fans?limit=100", "/v1/control-plane/audience/segments",
    "/v1/control-plane/autopilot/growth-metrics/trends",
    "/v1/control-plane/audience/acquisition-sources", "/v1/control-plane/ops/signal-overview"]

def pressOverview : String → Reading Value :=
  readModel "press-overview" ["/v1/control-plane/autopilot/beacon-press-requests",
    "/v1/control-plane/autopilot/beacon-press-assets",
    "/v1/control-plane/autopilot/beacon-signal-engagements",
    "/v1/control-plane/autopilot/beacon-coverage"]

def booking : String → Reading Value :=
  readModel "booking" ["/v1/control-plane/gig-plan",
    "/v1/control-plane/autopilot/opportunity-shortlist",
    "/v1/control-plane/autopilot/booking-discovery/candidates?status=admitted&limit=100",
    "/v1/control-plane/autopilot/outreach/candidates?status=admitted&limit=100",
    "/v1/control-plane/booking-agents", "/v1/control-plane/autopilot/reply-triage",
    "/v1/control-plane/autopilot/negotiations", "/v1/control-plane/events"]

def placesCitiesSpec : List String :=
  ["/v1/control-plane/audience/city-funnel?order=organise", "/v1/control-plane/gig-plan"]

def placesRoomsSpec : List String := ["/v1/control-plane/audience/city-venues"]

def placesOnlineSpec : List String := ["/v1/control-plane/audience-graph/places?limit=100"]

def placesRooms : String → Reading Value := readModel "places:rooms" placesRoomsSpec

def placesOnline : String → Reading Value := readModel "places:online" placesOnlineSpec

def placesCities : String → Reading Value :=
  readModel "places:cities" (placesCitiesSpec ++ placesRoomsSpec ++ placesOnlineSpec)

def brain : String → Reading Value :=
  readModel "brain" ["/v1/control-plane/autopilot/overview", "/v1/control-plane/autopilot/scorecard",
    "/v1/control-plane/autopilot/learning-loop", "/v1/control-plane/autopilot/learning-proof",
    "/v1/control-plane/autopilot/measurement", "/v1/control-plane/ops/attention",
    "/v1/control-plane/ops/action-states", "/v1/control-plane/ops/intelligence"]

def delivery : String → Reading Value :=
  readModel "delivery" ["/v1/control-plane/ops/summary", "/v1/control-plane/ops/outbox?limit=100",
    "/v1/control-plane/ops/deliveries?limit=100", "/v1/control-plane/ops/attention",
    "/v1/control-plane/ops/delivery-results?limit=100"]

def proof : String → Reading Value :=
  readModel "proof" ["/v1/control-plane/listing", "/v1/control-plane/attestations",
    "/v1/control-plane/representation/targets", "/v1/control-plane/events"]

def inMotion : String → Reading Value :=
  readModel "in-motion" ["/v1/control-plane/processes/relays", "/v1/control-plane/autopilot/overview",
    "/v1/control-plane/ops/intelligence"]

def content : String → Reading Value :=
  readModel "content" ["/v1/control-plane/content/pipeline",
    "/v1/control-plane/ops/delivery-results?limit=50", "/v1/control-plane/views/content-material"]

/-- The tenant and its lists come from our own database and have to be there. -/
def overview (rawSlug : String) : Reading Value := do
  let slug ← validSlug rawSlug
  let key := slug ++ ":overview"
  cached key do
    let tenant ← required slug "tenant"
    let sections ← fanOut slug ["provisioning-jobs", "audit", "/v1/control-plane/tenant-settings"]
    ensure (sections.all fun found => found.version.isSome ||
      found.path = "/v1/control-plane/tenant-settings") .failed
    let projected := tenant :: sections
    cacheSet key projected
    pure projected

inductive NightTarget where
  | unlinked
  | linked (id : String)
  | malformed

structure Documents where
  nextUpcomingShowSlug : Section → Option String
  showFanOutTargets : Section → Option (String × NightTarget)
  hasSteps : Section → Bool

/-- The timeline of the next night is fetched once the list of shows has named it. -/
def today (documents : Documents) (rawSlug : String) : Reading Value := do
  let slug ← validSlug rawSlug
  let key := slug ++ ":today"
  cached key do
    target slug
    let first ← fanOut slug ["/v1/control-plane/ops/summary", "/v1/control-plane/ecosystem/flags",
      "/v1/control-plane/autopilot/overview", "/v1/control-plane/autopilot/growth",
      "/v1/control-plane/autopilot/next-best-actions", "/v1/control-plane/ops/signal-overview",
      "/v1/control-plane/audience/overview", "/v1/control-plane/autopilot/growth-metrics/trends",
      "/v1/control-plane/audience/acquisition-sources", "/v1/control-plane/autopilot/reply-triage",
      "/v1/control-plane/events", "/v1/control-plane/ops/attention"]
    let shows := first.find? fun found => found.path = "/v1/control-plane/events"
    let timeline := (shows.bind documents.nextUpcomingShowSlug).map fun event =>
      "/v1/control-plane/events/" ++ event ++ "/timeline"
    let second ← fanOut slug (timeline.toList ++
      ["/v1/control-plane/ops/outcomes", "/v1/control-plane/reward-fulfillments"])
    let projected ← projectSections (first ++ second)
    cacheSet key projected
    pure projected

def pathSegment (value : String) : Except ApiError String :=
  if value ≠ "" ∧ value.utf8ByteSize ≤ 128 ∧
      Text.all (fun c => Text.isAsciiLowercase c || Text.isAsciiDigit c || c = '-' || c = '_') value then
    .ok value
  else .error (.invalidInput "invalid path segment")

/-- Nothing is shown of a night whose timeline cannot be read. -/
def showModel (documents : Documents) (rawSlug rawEventSlug : String) : Reading Value := do
  let slug ← validSlug rawSlug
  let eventSlug ← require ((pathSegment rawEventSlug).mapError .refused)
  let key := slug ++ ":show:" ++ eventSlug
  let timelinePath := "/v1/control-plane/events/" ++ eventSlug ++ "/timeline"
  cached key do
    target slug
    let first ← fanOut slug [timelinePath, "/v1/control-plane/events/" ++ eventSlug ++ "/who-can-help",
      "/v1/control-plane/autopilot/show-economics", "/v1/control-plane/autopilot/tour-economics"]
    let timeline ← require (((first.find? fun found =>
      found.path = timelinePath && found.version.isSome)).elim (.error .failed) .ok)
    let (eventId, night) ← require
      ((documents.showFanOutTargets timeline).elim (.error .contractMismatch) .ok)
    let sharedNight := match night with
      | .linked id => ["/v1/control-plane/nights/" ++ id]
      | .unlinked | .malformed => []
    let second ← fanOut slug
      (("/v1/control-plane/autopilot/events/" ++ eventId ++ "/growth-ladder") :: sharedNight)
    ensure (documents.hasSteps timeline = true) .contractMismatch
    let projected ← projectSections (first ++ second)
    cacheSet key projected
    pure projected

/-! ### Agent overviews -/

/-- `proxy_get_value`: the tenant is looked up for each section. -/
def proxyGetValue (slug path : String) : Reading Section := do
  let tenant ← fetchSection slug "tenant"
  let url ← fetchSection slug "management-url"
  if tenant.version.isSome && url.version.isSome then fetchSection slug path
  else pure { slug := slug, path := path, version := none }

def proxyEach : List (String × String) → Reading Value
  | [] => pure []
  | (slug, path) :: rest => do
    let found ← proxyGetValue slug path
    let others ← proxyEach rest
    pure (found :: others)

/-- The slug is taken as it comes, and a projection without a single section is kept too. -/
def tasksOverview (slug : String) : Reading Value := do
  let key := slug ++ ":agent-tasks-overview"
  cached key do
    let order ← ask (Op.arrange
      (["/templates", "/tasks", "/models", "/suggestions", "/schedules"].map fun path => (slug, path)))
    let projected ← proxyEach order
    cacheSet key projected
    pure projected

def providersOverview (slug : String) : Reading Value := do
  let key := slug ++ ":agent-providers-overview"
  cached key do
    let order ← ask (Op.arrange
      (["/providers", "/credentials", "/models"].map fun path => (slug, path)))
    let projected ← proxyEach order
    if projected.all (·.version.isSome) then cacheSet key projected
    pure projected

/-! ### The command centre -/

def summaryPaths : List String :=
  ["/v1/control-plane/ops/attention", "/v1/control-plane/autopilot/overview",
    "/v1/control-plane/autopilot/learning-loop", "/v1/control-plane/autopilot/growth",
    "/v1/control-plane/audience/overview", "/v1/control-plane/autopilot/growth-metrics/trends",
    "/v1/control-plane/autopilot/objectives"]

/-- `fetch_tenant_command_summary` of all tenants at once. A tenant without a target is not asked. -/
def fetchSummaries : List (String × String) → List String → Reading Value
  | [], _ => pure []
  | (slug, path) :: rest, down => do
    if slug ∈ down then
      let others ← fetchSummaries rest down
      pure ({ slug := slug, path := path, version := none } :: others)
    else
      let found ← fetchSection slug path
      if path = targetPath then
        fetchSummaries rest (if found.version.isSome then down else slug :: down)
      else
        let others ← fetchSummaries rest down
        pure (found :: others)

def commandCenter : Reading Value :=
  cached commandCenterKey do
    let listed ← ask Op.listTenants
    let tenants ← require (listed.elim (.error .failed) .ok)
    let order ← ask (Op.arrange (tenants.flatMap fun (slug, _) =>
      (targetPath :: summaryPaths).map fun path => (slug, path)))
    let summaries ← fetchSummaries order []
    let health ← ask (Op.platform "control_plane_platform_health")
    let outbox ← ask (Op.platform "control_plane_notification_outbox")
    ensure (health = true ∧ outbox = true) .failed
    let projected := tenants.map (fun (slug, version) =>
      { slug := slug, path := "tenant", version := some version }) ++ summaries
    cacheSet commandCenterKey projected
    pure projected

/-! ### Mutations -/

/-- What every route that changes a tenant does about the cache: the routes that take the slug as it
comes look the tenant up by it, so that it is the slug the tenant's models are kept under. -/
def mutate (mutation : Mutation) (slug : String) : Reading Value := do
  let accepted ← ask (Op.apply mutation slug)
  ensure (accepted = true) .failed
  invalidateTenant slug
  pure []

inductive Call where
  | portfolio (rawSlug : String)
  | audience (rawSlug : String)
  | pressOverview (rawSlug : String)
  | booking (rawSlug : String)
  | placesRooms (rawSlug : String)
  | placesOnline (rawSlug : String)
  | placesCities (rawSlug : String)
  | brain (rawSlug : String)
  | delivery (rawSlug : String)
  | proof (rawSlug : String)
  | inMotion (rawSlug : String)
  | content (rawSlug : String)
  | overview (rawSlug : String)
  | today (rawSlug : String)
  | showModel (rawSlug rawEventSlug : String)
  | tasksOverview (slug : String)
  | providersOverview (slug : String)
  | commandCenter
  | mutate (mutation : Mutation) (slug : String)
  | pruneCache

def handler (documents : Documents) : Call → Reading Value
  | .portfolio rawSlug => portfolio rawSlug
  | .audience rawSlug => audience rawSlug
  | .pressOverview rawSlug => pressOverview rawSlug
  | .booking rawSlug => booking rawSlug
  | .placesRooms rawSlug => placesRooms rawSlug
  | .placesOnline rawSlug => placesOnline rawSlug
  | .placesCities rawSlug => placesCities rawSlug
  | .brain rawSlug => brain rawSlug
  | .delivery rawSlug => delivery rawSlug
  | .proof rawSlug => proof rawSlug
  | .inMotion rawSlug => inMotion rawSlug
  | .content rawSlug => content rawSlug
  | .overview rawSlug => overview rawSlug
  | .today rawSlug => today documents rawSlug
  | .showModel rawSlug rawEventSlug => showModel documents rawSlug rawEventSlug
  | .tasksOverview slug => tasksOverview slug
  | .providersOverview slug => providersOverview slug
  | .commandCenter => commandCenter
  | .mutate mutation slug => mutate mutation slug
  | .pruneCache => do
    pruneCache
    pure []

def machine (documents : Documents) :
    Machine Op Op.Result World Choice Nat Call (Except ReadError Value) where
  exec := exec
  env world elapsed := { world with clock := world.clock + elapsed }
  process call := (handler documents call).run

end ControlPlane.ReadModels
