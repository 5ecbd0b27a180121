import ControlPlane.Model
import ControlPlane.Url

/-!
# Request validation

The checks the routes make before a request reaches the store, with their messages.
-/

namespace ControlPlane.Validation

def slug (value : String) : Except ApiError String :=
  let value := Text.toAsciiLowercase (Text.trim value)
  let validLen := 2 ≤ value.utf8ByteSize ∧ value.utf8ByteSize ≤ 63
  let validChars := value.toList.zipIdx.all fun (c, index) =>
    Text.isAsciiLowercase c || Text.isAsciiDigit c || (0 < index && c == '-')
  if ¬ validLen ∨ ¬ validChars ∨ value.toList.getLast? = some '-' then
    .error (.invalidInput "slug must be 2-63 lowercase letters, digits or internal hyphens")
  else .ok value

def displayName (value : String) : Except ApiError String :=
  let value := Text.trim value
  if 2 ≤ value.length ∧ value.length ≤ 120 ∧ ¬ value.toList.any Text.isControl then .ok value
  else .error (.invalidInput "displayName must be 2-120 printable characters")

def tenantArchetypes : List Archetype := [.band, .roster, .label, .festivalOrg]

def tenantArchetype (value : Option String) : Except ApiError Archetype :=
  let value := ((value.map Text.trim).filter (· ≠ "")).getD "band"
  (tenantArchetypes.find? (·.asStr = value)).elim
    (.error (.invalidInput ("unknown archetype: " ++ value))) .ok

def tenantPlacements : List Placement := [.dedicated, .sharedPg]

def tenantPlacement (value : Option String) : Except ApiError (Option Placement) :=
  match (value.map Text.trim).filter (· ≠ "") with
  | none => .ok none
  | some value =>
    (tenantPlacements.find? (·.asStr = value)).elim
      (.error (.invalidInput ("unknown placement: " ++ value))) fun placement => .ok (some placement)

/-- Where a tenant lands when the request does not say. -/
def defaultPlacement : Archetype → Placement
  | .band | .roster => .sharedPg
  | .label | .festivalOrg => .dedicated

def isValidEmailLocalByte (c : Char) : Bool :=
  Text.isAsciiAlphanumeric c ||
    ['.', '!', '#', '$', '%', '&', '\'', '*', '+', '-', '/', '=', '?', '^', '_', '`', '{', '|', '}',
      '~'].contains c

def normalizedEmail (crates : Crates) (value : String) : Option String :=
  let value := Text.trim value
  if value = "" ∨ 254 < value.utf8ByteSize ∨ ¬ Text.all (·.toNat < 128) value ∨
      value.toList.any Text.isControl then none
  else
    match Text.splitOnce '@' value with
    | none => none
    | some (name, domain) =>
      if domain.toList.contains '@' ∨ name = "" ∨ 64 < name.utf8ByteSize ∨
          name.toList.head? = some '.' ∨ name.toList.getLast? = some '.' ∨
          Text.contains ".." name ∨ ¬ Text.all isValidEmailLocalByte name then none
      else
        match crates.parseHost domain with
        | some (.domain canonical _ _) =>
          some (Text.toAsciiLowercase name ++ "@" ++ Text.toAsciiLowercase canonical)
        | _ => none

def teamSkills : List String :=
  ["general", "operations", "booking", "approval", "technical", "visual", "video", "photography",
    "social", "english_copy", "polish_copy", "people"]

def memberError (key detail : String) : ApiError :=
  .invalidInput ("teamMembers member '" ++ key ++ "' " ++ detail)

/-- A key that is given is trimmed and checked; otherwise the position supplies one. -/
def memberKey (index : Nat) : Option String → Except ApiError String
  | some key =>
    let key := Text.trim key
    if 2 ≤ key.utf8ByteSize ∧ key.utf8ByteSize ≤ 48 ∧
        Text.all (fun c => Text.isAsciiLowercase c || Text.isAsciiDigit c ||
          ['_', '-'].contains c) key then .ok key
    else
      .error (.invalidInput ("teamMembers key '" ++ key ++ "' must match ^[a-z0-9_-]\x7b2,48\x7d$"))
  | none => .ok ("member_" ++ toString (index + 1))

def memberSkills (key : String) (skills : List String) : List String → Except ApiError (List String)
  | [] => .ok skills
  | skill :: rest =>
    let skill := Text.toAsciiLowercase (Text.trim skill)
    if ¬ teamSkills.contains skill then
      .error (memberError key ("skill '" ++ skill ++ "' is not a known team skill"))
    else memberSkills key (if skills.contains skill then skills else skills ++ [skill]) rest

def teamMember (crates : Crates) (index : Nat) (seenKeys : List String)
    (normalized : List TeamMemberRequest) (member : TeamMemberRequest) :
    Except ApiError TeamMemberRequest := do
  let key ← memberKey index member.key
  if seenKeys.contains key then
    .error (.invalidInput ("teamMembers key '" ++ key ++ "' is duplicated"))
  else
    let name := Text.trim member.name
    if name = "" ∨ 80 < name.length ∨ name.toList.any Text.isControl then
      .error (memberError key "name must be 1-80 characters with no control characters")
    else
      match normalizedEmail crates member.email with
      | none => .error (memberError key "email is not a valid email address")
      | some email =>
        if normalized.any (·.email = email) then
          .error (memberError key "shares an email with another member")
        else if member.skills = [] then
          .error (memberError key "must declare at least one skill")
        else do
          let skills ← memberSkills key [] member.skills
          pure { key := some key, name := name, email := email, skills := skills }

def teamMembersFrom (crates : Crates) (index : Nat) (seenKeys : List String)
    (normalized : List TeamMemberRequest) :
    List TeamMemberRequest → Except ApiError (List TeamMemberRequest)
  | [] => .ok normalized
  | member :: members => do
    let next ← teamMember crates index seenKeys normalized member
    teamMembersFrom crates (index + 1) (seenKeys ++ next.key.toList) (normalized ++ [next]) members

def maxTeamMembers : Nat := 32

def teamMembers (crates : Crates) (members : List TeamMemberRequest) :
    Except ApiError (List TeamMemberRequest) :=
  if maxTeamMembers < members.length then
    .error (.invalidInput "teamMembers exceeds the 32-member bound")
  else teamMembersFrom crates 0 [] [] members

def baseUrl (crates : Crates) : Option String → Except ApiError (Option String)
  | none => .ok none
  | some raw =>
    match crates.parseUrl (Text.trim raw) with
    | none => .error (.invalidInput "invalid URL")
    | some parsed =>
      if parsed.scheme ≠ "https" ∨ parsed.host.isNone ∨ parsed.username ≠ "" ∨
          parsed.password.isSome ∨ parsed.path ≠ "/" ∨ parsed.query.isSome ∨
          parsed.fragment.isSome then
        .error (.invalidInput ("tenant URLs must be bare HTTPS origins without credentials, " ++
          "path, query or fragment"))
      else .ok (some (Text.trimEndMatches '/' parsed.asStr))

def countryCode : Option String → Except ApiError String
  | none =>
    .error (.invalidInput
      "defaultCountryCode is required; new tenants must not inherit a hidden country")
  | some value =>
    let value := Text.toAsciiUppercase (Text.trim value)
    if value.utf8ByteSize = 2 ∧ Text.all Text.isAsciiUppercase value then .ok value
    else
      .error (.invalidInput
        "defaultCountryCode must be a two-letter uppercase ISO-style country code")

def dataRegion (value : Option String) : Except ApiError (Option String) :=
  match (value.map Text.trim).filter (· ≠ "") with
  | none => .ok none
  | some value =>
    let value := Text.toAsciiLowercase value
    if value = "eu" ∨ value = "us" then .ok (some value)
    else .error (.invalidInput "dataRegion must be eu or us")

/-- A field that is one of a few words, after trimming and lowercasing. -/
def word (words : List String) (message value : String) : Except ApiError String :=
  let value := Text.toAsciiLowercase (Text.trim value)
  if words.contains value then .ok value else .error (.invalidInput message)

def locale (value : String) : Except ApiError String :=
  let value := Text.trim value
  if 4 ≤ value.utf8ByteSize ∧ value.utf8ByteSize ≤ 35 ∧ value.toList.contains '-' ∧
      Text.all (fun c => Text.isAsciiAlphanumeric c || c == '-') value then .ok value
  else
    .error (.invalidInput "locale must be an explicit BCP-47 style tag such as de-DE or en-US")

def timezone (value : String) : Except ApiError String :=
  let value := Text.trim value
  if 3 ≤ value.utf8ByteSize ∧ value.utf8ByteSize ≤ 64 ∧ value.toList.contains '/' ∧
      Text.all (fun c => Text.isAsciiAlphanumeric c || ['/', '_', '-', '+'].contains c) value then
    .ok value
  else
    .error (.invalidInput ("timezone must be an explicit IANA-style zone such as Europe/Berlin " ++
      "or America/New_York"))

def currency (value : String) : Except ApiError String :=
  let value := Text.toAsciiUppercase (Text.trim value)
  if value.utf8ByteSize = 3 ∧ Text.all Text.isAsciiUppercase value then .ok value
  else .error (.invalidInput "currency must be a three-letter uppercase ISO-style code")

def regionalProfile (profile : RegionalProfile) : Except ApiError RegionalProfile := do
  let countryCode ← countryCode (some profile.countryCode)
  let region ← word ["eu", "us"] "region must be eu or us" profile.region
  let locale ← locale profile.locale
  let timezone ← timezone profile.timezone
  let currency ← currency profile.currency
  let dateFormat ← word ["dmy", "mdy", "ymd"] "dateFormat must be dmy, mdy or ymd" profile.dateFormat
  let numberFormat ← word ["comma_decimal", "dot_decimal"]
    "numberFormat must be comma_decimal or dot_decimal" profile.numberFormat
  let dataRegion ← dataRegion (some profile.dataRegion)
  let dataRegion ← dataRegion.elim (.error (.invalidInput "dataRegion must be eu or us")) .ok
  pure { countryCode, region, locale, timezone, currency, dateFormat, numberFormat, dataRegion }

def isLowercaseSha (sha : String) : Bool :=
  sha.utf8ByteSize = 40 ∧
    Text.all (fun c => Text.isAsciiHexdigit c && !Text.isAsciiUppercase c) sha

def deploymentVersion (value fallback : Option String) : Except ApiError String :=
  match ((value.map Text.trim).filter (· ≠ "")).or fallback with
  | none =>
    .error (.invalidInput ("desiredVersion is required until " ++
      "CONTROL_PLANE_PROVISIONER_DEFAULT_IMAGE_TAG is configured"))
  | some raw =>
    let sha := (Text.strip "sha-" raw).getD raw
    if isLowercaseSha sha then .ok ("sha-" ++ sha)
    else
      .error (.invalidInput
        "desiredVersion must be an immutable sha-<40 lowercase hex> CrowdRelay image tag")

def workerId (value : String) : Except ApiError String :=
  let value := Text.trim value
  if 3 ≤ value.utf8ByteSize ∧ value.utf8ByteSize ≤ 96 ∧
      Text.all (fun c => Text.isAsciiAlphanumeric c || ['-', '_', '.', ':'].contains c) value then
    .ok value
  else .error (.invalidInput "workerId must be 3-96 safe identifier characters")

def claimToken (value : String) : Except ApiError String :=
  let value := Text.trim value
  if value.utf8ByteSize = 32 ∧ Text.all Text.isAsciiHexdigit value then .ok value
  else .error (.invalidInput "invalid provisioning claim token")

def provisionSuccess (completion : ProvisioningCompletion) : Except ApiError Unit :=
  if completion.apiPort < 1024 then .error (.invalidInput "apiPort must be >= 1024")
  else if completion.schemaVersion < 0 then
    .error (.invalidInput "schemaVersion cannot be negative")
  else if isLowercaseSha completion.deployedSha then .ok ()
  else
    .error (.invalidInput "deployedSha must be exactly 40 lowercase hexadecimal characters")

def provisionFailure (code : String) (detail : Option String) :
    Except ApiError (String × Option String) :=
  let code := Text.trim code
  if code = "" ∨ 96 < code.utf8ByteSize ∨
      ¬ Text.all (fun c => Text.isAsciiLowercase c || Text.isAsciiDigit c ||
        ['_', '-'].contains c) code then
    .error (.invalidInput "errorCode must be 1-96 lowercase identifier characters")
  else
    match (detail.map Text.trim).filter (· ≠ "") with
    | none => .ok (code, none)
    | some detail =>
      if 1000 < detail.length ∨ detail.toList.any Text.isControl then
        .error (.invalidInput "errorDetail must be at most 1000 printable characters")
      else .ok (code, some detail)

/-- `rgb(value).is_some()`: two hexadecimal digits are always a byte. -/
def isRgb (value : String) : Bool :=
  value.utf8ByteSize = 7 ∧ value.toList.head? = some '#' ∧
    value.toList.tail.all Text.isAsciiHexdigit

def palette (crates : Crates) (value : Option BrandingPalette) :
    Except ApiError (Option BrandingPalette) :=
  match value with
  | none => .ok none
  | some palette =>
    if ¬ palette.members.all (fun member => isRgb member.2) then
      .error (.invalidInput "palette colors must use #RRGGBB")
    else if (crates.contrast palette.primary palette.primaryContrast).getD 0 < 9 / 2 then
      .error (.invalidInput "primary/primaryContrast must meet WCAG AA 4.5:1")
    else if (crates.contrast palette.surface palette.text).getD 0 < 9 / 2 then
      .error (.invalidInput "surface/text must meet WCAG AA 4.5:1")
    else .ok (some palette)

def isNegative (value : Option Int) : Bool := value.any (· < 0)

def runtimeReport (input : RuntimeReportRequest) (now : Instant) : Except ApiError Unit :=
  if isNegative input.schemaVersion then .error (.invalidInput "schemaVersion cannot be negative")
  else if isNegative input.outboxPending || isNegative input.queueLag ||
      isNegative input.awaitingApproval || isNegative input.northStarFans ||
      isNegative input.repliesWaiting || isNegative input.cutCandidateLanes then
    .error (.invalidInput "runtime counters cannot be negative")
  else if input.deployedSha.any fun sha =>
      !(7 ≤ sha.utf8ByteSize && sha.utf8ByteSize ≤ 128 && Text.all Text.isAsciiHexdigit sha) then
    .error (.invalidInput "deployedSha must be a 7-128 character hexadecimal identifier")
  else if input.lastHeartbeatAt.any fun observedAt => now + seconds 300 < observedAt then
    .error (.invalidInput "lastHeartbeatAt cannot be more than 5 minutes in the future")
  else if input.lastHeartbeatAt.any fun observedAt => observedAt < now - days 30 then
    .error (.invalidInput "lastHeartbeatAt cannot be more than 30 days old")
  else .ok ()

end ControlPlane.Validation
