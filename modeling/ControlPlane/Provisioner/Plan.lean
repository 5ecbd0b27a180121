import ControlPlane.Json
import ControlPlane.Pattern
import ControlPlane.Python

/-!
# Plans the provisioner accepts

The provisioner checks a job's plan field by field; nothing it does later looks at a plan that has
not passed.
-/

namespace ControlPlane.Provisioner

open Pattern (range oneOf literal times between plus fullmatch)

structure ProvisionError where
  code : String
  detail : String
  terminal : Bool := true
deriving DecidableEq, Repr

/-- What a call ends with when it does not return: the provisioner's own error, or another exception
by its class. -/
inductive Exn where
  | provision (error : ProvisionError)
  | other (name : String)
deriving DecidableEq, Repr

def lowercase : List Char := range 'a' 'z'

def uppercase : List Char := range 'A' 'Z'

def digit : List Char := range '0' '9'

def hexdigit : List Char := digit ++ range 'a' 'f'

def alphanumeric : List Char := uppercase ++ lowercase ++ digit

def slugPattern : RegularExpression Char :=
  oneOf (lowercase ++ digit) * between 1 62 (oneOf (lowercase ++ digit ++ ['-']))

def imagePattern : RegularExpression Char :=
  plus (oneOf (alphanumeric ++ ['.', '/', '_', '-'])) * (literal ":" *
    plus (oneOf (alphanumeric ++ ['.', '_', '-'])))

def shaTagPattern : RegularExpression Char := literal "sha-" * times 40 (oneOf hexdigit)

def countryPattern : RegularExpression Char := times 2 (oneOf uppercase)

def currencyPattern : RegularExpression Char := times 3 (oneOf uppercase)

def localePart : RegularExpression Char := between 2 8 (oneOf alphanumeric)

def localePattern : RegularExpression Char := localePart * plus (literal "-" * localePart)

def timezonePattern : RegularExpression Char :=
  plus (oneOf (alphanumeric ++ ['_', '+', '-'])) * (literal "/" *
    plus (oneOf (alphanumeric ++ ['_', '+', '/', '-'])))

def hexColorPattern : RegularExpression Char :=
  literal "#" * times 6 (oneOf (hexdigit ++ range 'A' 'F'))

def dockerNamePattern : RegularExpression Char :=
  oneOf alphanumeric * between 0 127 (oneOf (alphanumeric ++ ['_', '.', '-']))

def pgIdentPattern : RegularExpression Char :=
  literal "t_" * between 1 61 (oneOf (lowercase ++ digit ++ ['_']))

def tenantIdPattern : RegularExpression Char := times 36 (oneOf (hexdigit ++ ['-']))

def memberKeyPattern : RegularExpression Char :=
  between 2 48 (oneOf (lowercase ++ digit ++ ['_', '-']))

/-- `document.get(name)`: a missing member reads as `None`. -/
def item (name : String) (document : Json) : Json := (document.get name).getD .null

def isObject : Json → Bool
  | .obj _ => true
  | _ => false

def isNone : Json → Bool
  | .null => true
  | _ => false

def truthy : Json → Bool
  | .null => false
  | .bool b => b
  | .num n => n ≠ 0
  | .str s => s ≠ ""
  | .arr items => !items.isEmpty
  | .obj members => !members.isEmpty

def lineBreakers : List Char := ['\r', '\n', '\x00']

def hasAny (chars : List Char) (s : String) : Bool := s.toList.any (chars.contains ·)

def isMatch (pattern : RegularExpression Char) (value : Json) : Bool :=
  value.asStr.any (fullmatch pattern)

def safeHttpsOrigin (py : Python.Runtime) (value : Json) : Bool :=
  match value.asStr with
  | none => false
  | some s =>
    !s.toList.any (fun c => Python.isSpace c || c.toNat < 32) &&
      (Python.urlsplit py s.toList).any fun parsed =>
        parsed.scheme = "https".toList && parsed.hostname ≠ [] && parsed.anonymous &&
          (parsed.path = [] || parsed.path = ['/']) && parsed.query = [] && parsed.fragment = []

/-- `"//" in text`. -/
def hasDoubleSlash : List Char → Bool
  | '/' :: '/' :: _ => true
  | _ :: rest => hasDoubleSlash rest
  | [] => false

def safeRepository (repository : List Char) : Bool :=
  !(repository.head? = some '/' || repository.head? = some '.') &&
    repository.getLast? ≠ some '/' && !hasDoubleSlash repository &&
    (repository.splitOn '/').all fun segment => segment ≠ [] && segment ≠ ['.'] && segment ≠ ['.', '.']

def safeImageRef (value : Json) (expectedTag : String) : Bool :=
  match value.asStr with
  | none => false
  | some s =>
    let (repository, separator, tag) := Python.rpartition ':' s.toList
    fullmatch imagePattern s && separator && tag = expectedTag.toList && safeRepository repository

/-- The tenant's database and role on the shared cluster. -/
def placementDatabaseName (slug tenantId : String) : String :=
  let underscored := slug.toList.map fun c => if c = '-' then '_' else c
  let candidate := "t_".toList ++ underscored
  if candidate.length ≤ 63 then String.ofList candidate
  else
    String.ofList ("t_".toList ++ underscored.take 52 ++ '_' ::
      (tenantId.toList.filter (· ≠ '-')).take 8)

def invalidPlan (detail : String) : Exn := .provision { code := "invalid_plan", detail }

def check (passes : Bool) (detail : String) : Except Exn Unit :=
  if passes then .ok () else .error (invalidPlan detail)

def matching (pattern : RegularExpression Char) (detail : String) (value : Json) :
    Except Exn String :=
  match value with
  | .str s => if fullmatch pattern s then .ok s else .error (invalidPlan detail)
  | _ => .error (invalidPlan detail)

/-- `value in {…}`: a list or an object cannot be looked up in a set. -/
def inSet (words : List String) : Json → Except Exn Bool
  | .str s => .ok (words.contains s)
  | .arr _ | .obj _ => .error (.other "TypeError")
  | .null | .bool _ | .num _ => .ok false

def memberNames : Json → List String
  | .obj members => members.map Prod.fst
  | _ => []

def sameSet (names expected : List String) : Bool :=
  names.all expected.contains && expected.all names.contains

def paletteKeys : List String :=
  ["primary", "primaryContrast", "accent", "surface", "surfaceElevated", "text", "textMuted",
    "success", "warning", "danger"]

def checkPalette (palette : Json) : Except Exn Unit := do
  check (isObject palette && sameSet (memberNames palette) paletteKeys)
    "branding palette shape is invalid"
  match palette with
  | .obj members =>
    check (members.all fun member => isMatch hexColorPattern member.2)
      "branding palette colors are invalid"
  | _ => pure ()

/-- The checks of one entry of the roster; the result is its normalized address. -/
def checkMember (py : Python.Runtime) (seenEmails : List (List Char)) (member : Json) :
    Except Exn (List Char) := do
  check (isObject member) "teamMembers entries must be objects"
  check (isNone (item "key" member) || isMatch memberKeyPattern (item "key" member))
    "teamMembers key is invalid"
  check ((item "name" member).asStr.any fun name =>
    1 ≤ name.length && name.length ≤ 80 && !hasAny lineBreakers name) "teamMembers name is invalid"
  let email := (item "email" member).asStr
  check (email.any fun email => email.toList.contains '@' && !hasAny (' ' :: lineBreakers) email)
    "teamMembers email is invalid"
  let normalized := py.lower (Python.strip (email.getD "").toList)
  check (!seenEmails.contains normalized) "teamMembers emails must be unique"
  check (match item "skills" member with
    | .arr (skill :: skills) => (skill :: skills).all (·.asStr.isSome)
    | _ => false) "teamMembers skills must be a non-empty list"
  pure normalized

def checkMembersFrom (py : Python.Runtime) (seenEmails : List (List Char)) :
    List Json → Except Exn Unit
  | [] => .ok ()
  | member :: members => do
    let email ← checkMember py seenEmails member
    checkMembersFrom py (email :: seenEmails) members

def checkMembers (py : Python.Runtime) : Json → Except Exn Unit
  | .null => .ok ()
  | .arr members => do
    check (members.length ≤ 32) "teamMembers must be a list of at most 32 members"
    checkMembersFrom py [] members
  | _ => .error (invalidPlan "teamMembers must be a list of at most 32 members")

def checkProviderKeys : Json → Except Exn Unit
  | .null => .ok ()
  | .obj members =>
    members.forM fun member =>
      check (member.2.asStr.any fun value => !hasAny lineBreakers value)
        ("providerKeys." ++ member.1 ++ " must be a string with no control characters")
  | _ => .error (invalidPlan "providerKeys must be an object")

def profileKeys : List String :=
  ["countryCode", "region", "locale", "timezone", "currency", "dateFormat", "numberFormat",
    "dataRegion"]

def checkProfile (country : String) (profile : Json) : Except Exn Unit := do
  check (isObject profile && sameSet (memberNames profile) profileKeys)
    "regional profile shape is invalid"
  check ((item "countryCode" profile).asStr = some country && fullmatch countryPattern country)
    "regional country does not match tenant country"
  let region ← inSet ["eu", "us"] (item "region" profile)
  -- `or` looks at the data region only when the region is one of the two
  let dataRegion ← if region then inSet ["eu", "us"] (item "dataRegion" profile) else pure false
  check (region && dataRegion) "regional/data region must be eu or us"
  check (isMatch localePattern (item "locale" profile)) "invalid regional locale"
  check (isMatch timezonePattern (item "timezone" profile)) "invalid IANA-style timezone"
  check (isMatch currencyPattern (item "currency" profile)) "invalid regional currency"
  let dateFormat ← inSet ["dmy", "mdy", "ymd"] (item "dateFormat" profile)
  check dateFormat "invalid regional date format"
  let numberFormat ← inSet ["comma_decimal", "dot_decimal"] (item "numberFormat" profile)
  check numberFormat "invalid regional number format"

/-- The placement a plan of the latest schema names. -/
def checkPlacement (slug tenantId : String) (plan : Json) : Except Exn String :=
  match (item "placement" plan).asStr with
  | some "dedicated" => do
    check (plan.get "sharedPg").isNone "dedicated plan must not carry sharedPg"
    pure "dedicated"
  | some "shared_pg" => do
    let shared := item "sharedPg" plan
    check (isObject shared) "shared_pg plan is missing sharedPg"
    check (isMatch dockerNamePattern (item "host" shared))
      "sharedPg.host is not a docker-safe name"
    check (isMatch dockerNamePattern (item "network" shared))
      "sharedPg.network is not a docker-safe name"
    let database ← matching pgIdentPattern "sharedPg.database is not a safe identifier"
      (item "database" shared)
    check (database = placementDatabaseName slug tenantId)
      "sharedPg.database does not derive from tenant identity"
    pure "shared_pg"
  | _ => .error (invalidPlan "unknown tenant placement")

def safePlan (py : Python.Runtime) (job : Json) : Except Exn Json := do
  let plan := item "plan" job
  check (isObject plan && (item "mode" plan).asStr = some "local_docker_compose")
    "unsupported provisioning plan"
  let schema := (item "schema" plan).asInt
  check ([some 3, some 4, some 5].contains schema) "unsupported provisioning plan schema"
  let named := item "tenantId" plan
  let tenantId ← matching tenantIdPattern "invalid tenant id"
    (if truthy named then named else item "tenantId" job)
  let plan := plan.set "tenantId" (.str tenantId)
  let slug ← matching slugPattern "invalid tenant slug" (item "tenantSlug" plan)
  check ((item "composeProject" plan).asStr = some ("crowdrelay-" ++ slug) &&
    (item "workspaceSlug" plan).asStr = some slug) "compose/workspace identity mismatch"
  check ((item "displayName" plan).asStr.any fun name =>
    2 ≤ name.length && name.length ≤ 120 && !hasAny lineBreakers name) "invalid display name"
  let country ← matching countryPattern "invalid country code" (item "defaultCountryCode" plan)
  let desired ← matching shaTagPattern "deployment is not pinned to an immutable SHA"
    (item "desiredVersion" plan)
  check (safeImageRef (item "apiImage" plan) desired && safeImageRef (item "workerImage" plan) desired)
    "invalid CrowdRelay image reference"
  check (safeHttpsOrigin py (item "crowdRelayBaseUrl" plan))
    "CrowdRelay base URL must be a bare HTTPS origin"
  check (isNone (item "publicSiteBaseUrl" plan) || safeHttpsOrigin py (item "publicSiteBaseUrl" plan))
    "public site URL must be a bare HTTPS origin"
  match item "allowedOrigins" plan with
  | .arr origins => check (origins.all (safeHttpsOrigin py)) "allowed origins are invalid"
  | _ => .error (invalidPlan "allowed origins must be a list")
  if isNone (item "brandingPalette" plan) then pure () else checkPalette (item "brandingPalette" plan)
  checkMembers py (item "teamMembers" plan)
  checkProviderKeys (item "providerKeys" plan)
  if schema = some 3 then pure () else checkProfile country (item "regionalProfile" plan)
  let placement ← if schema = some 5 then checkPlacement slug tenantId plan else pure "dedicated"
  pure (plan.set "placement" (.str placement))

end ControlPlane.Provisioner
