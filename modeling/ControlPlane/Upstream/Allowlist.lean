import ControlPlane.Text

/-!
# Requests to a tenant's service

The console passes on only requests it knows: a table of operator routes with typed parameters, and
for each method a list of paths, some with a segment left open.
-/

namespace ControlPlane.Upstream

/-! ### Segments -/

def safeChar (c : Char) : Bool :=
  Text.isAsciiLowercase c || Text.isAsciiDigit c || c = '_' || c = '-'

def safeSegment (limit : Nat) (segment : String) : Bool :=
  segment ≠ "" && segment.utf8ByteSize ≤ limit && Text.all safeChar segment

def identifierChar (c : Char) : Bool :=
  Text.isAsciiAlphanumeric c || c = '-' || c = '_' || c = '.' || c = ':'

def identifierSegment (segment : String) : Bool :=
  segment ≠ "" && segment.utf8ByteSize ≤ 128 && Text.all identifierChar segment

def hyphenated (cs : List Char) : Bool :=
  cs.length = 36 && cs.zipIdx.all fun (c, index) =>
    if [8, 13, 18, 23].contains index then c = '-' else Text.isAsciiHexdigit c

/-- Whether `Uuid::parse_str` takes the text: the digits alone, with their hyphens, in braces or as a
URN. -/
def uuidParses (s : String) : Bool :=
  let cs := s.toList
  (cs.length = 32 && cs.all Text.isAsciiHexdigit) || hyphenated cs ||
    ((Text.strip "\x7b" s).bind (Text.stripEnd "\x7d")).any (hyphenated ·.toList) ||
    (Text.strip "urn:uuid:" s).any (hyphenated ·.toList)

/-! ### The operator surface -/

def upstreamPrefix : String := "/v1/control-plane/"

structure Surface where
  method : String
  path : String
  query : List String

def read (path : String) : Surface := ⟨"GET", path, []⟩

def readQ (path : String) (query : List String) : Surface := ⟨"GET", path, query⟩

def write (method path : String) : Surface := ⟨method, path, []⟩

/-- `SURFACE`. -/
def surfaces : List Surface :=
  [readQ "ops/cycles" ["state", "limit"], read "ops/goal", read "content/hooks",
    readQ "content/videos/scorecards" ["limit"],
    read "ops/connections",
    read "ops/action-states",
    read "ecosystem/overview",
    readQ "ecosystem/findings" ["limit", "open_only"],
    read "autopilot/reach-metrics",
    read "analytics/funnel",
    read "analytics/revenue",
    read "analytics/referral-conversion",
    read "analytics/ad-conversion",
    read "analytics/ad-conversion/breakdown",
    read "communications/campaigns",
    write "POST" "communications/campaigns",
    write "POST" "communications/campaigns/\x7bcampaign_id\x7d/schedule",
    write "POST" "communications/campaigns/\x7bcampaign_id\x7d/cancel",
    read "smart-links",
    write "POST" "smart-links",
    write "POST" "audience/fans/\x7bfan_id\x7d/referral-code",
    read "events/\x7bevent_slug\x7d/ticketing",
    write "PUT" "events/\x7bevent_slug\x7d/support-slots",
    write "PUT" "events/\x7bevent_slug\x7d/festival",
    read "events/\x7bevent_id\x7d/commerce-summary",
    write "POST" "events/\x7bevent_id\x7d/show-cost/prediction",
    write "POST" "events/\x7bevent_id\x7d/show-cost/settlement",
    read "ecosystem/checklists/\x7bevent_slug\x7d",
    write "POST" "ecosystem/checklists/\x7bevent_slug\x7d/\x7bitem_key\x7d",
    readQ "event-qr/campaigns" ["limit"],
    write "POST" "event-qr/campaigns",
    write "POST" "event-qr/campaigns/\x7bcampaign_id\x7d/revoke",
    write "POST" "event-qr/campaigns/\x7bcampaign_id\x7d/context",
    read "merch/catalog",
    write "POST" "merch/catalog",
    read "merch/inventory/overview",
    read "merch/inventory/activation",
    write "POST" "merch/inventory/stocktakes",
    write "POST" "merch/inventory/ready",
    write "POST" "merch/inventory/adjustments",
    read "merch/promotion-recommendations",
    write "POST" "autopilot/merch-economics",
    write "POST" "autopilot/ticket-allocation-guardrails",
    write "POST" "autopilot/promotion-budget-guardrails",
    read "reward-campaigns",
    write "POST" "reward-campaigns",
    write "POST" "reward-campaigns/\x7bdraw_id\x7d/schedule",
    write "POST" "reward-campaigns/\x7bdraw_id\x7d/cancel",
    read "reward-fulfillments",
    write "POST" "reward-fulfillments/\x7bwinner_id\x7d",
    write "POST" "autopilot/content-sources/\x7bsource_id\x7d/promote",
    read "autopilot/releases",
    write "POST" "autopilot/releases",
    read "autopilot/release-ledger",
    read "autopilot/release-outcomes",
    write "POST" "autopilot/releases/\x7brelease_id\x7d/editorial-pitch",
    write "POST" "autopilot/playlist-placements",
    write "POST" "autopilot/beacon-release-campaigns/\x7bcampaign_id\x7d/recipients/\x7bbeacon_id\x7d",
    read "autopilot/outreach-waves",
    write "POST" "autopilot/outreach-waves/\x7bwave_id\x7d/approve",
    readQ "autopilot/outreach-contacts" ["state", "kind", "limit"],
    write "POST" "autopilot/outreach-targets",
    write "POST" "autopilot/outreach-targets/\x7btarget_id\x7d/reply",
    write "POST" "autopilot/outreach-targets/\x7btarget_id\x7d/written",
    read "autopilot/outreach-targets/\x7btarget_id\x7d/conversation",
    write "POST" "autopilot/outreach-targets/\x7btarget_id\x7d/suppression",
    write "POST" "autopilot/outreach/submission-channels",
    write "POST" "autopilot/booking-targets",
    write "POST" "autopilot/booking-targets/\x7btarget_id\x7d/editions",
    write "POST" "autopilot/booking-targets/\x7btarget_id\x7d/reply",
    write "POST" "autopilot/booking-targets/\x7btarget_id\x7d/venues/\x7bvenue_id\x7d",
    write "DELETE" "autopilot/booking-targets/\x7btarget_id\x7d/venues/\x7bvenue_id\x7d",
    read "autopilot/manager-config/booking-policy",
    write "POST" "autopilot/manager-config/booking-policy",
    write "POST" "autopilot/team-opportunities/discover",
    write "POST" "autopilot/team-opportunities/\x7bopportunity_id\x7d/progress",
    write "POST" "autopilot/actions/approve",
    write "POST" "autopilot/actions/\x7baction_id\x7d/assign",
    write "POST" "autopilot/actions/\x7baction_id\x7d/revise",
    write "POST" "autopilot/content-suggestions/\x7bsuggestion_id\x7d/outcome",
    write "POST" "autopilot/content-sources/\x7bsource_id\x7d/relay-ladder/approve",
    write "POST" "autopilot/content-sources/\x7bsource_id\x7d/relay-ladder/revoke",
    read "community-replies",
    write "POST" "community-replies/\x7breply_id\x7d/approve",
    write "POST" "community-replies/\x7breply_id\x7d/skip",
    write "POST" "telegram-posts/\x7btelegram_post_id\x7d/register-manual",
    write "POST" "discord-posts/\x7bdiscord_post_id\x7d/register-manual",
    read "audience-graph/places/\x7bplace_id\x7d",
    write "PUT" "audience-graph/places/\x7bplace_id\x7d/rules",
    write "POST" "audience-graph/places/\x7bplace_id\x7d/evidence",
    write "POST" "audience-graph/places/\x7bplace_id\x7d/outreach/advance",
    readQ "content-engine/peers" ["status"],
    write "POST" "content-engine/peers",
    write "POST" "content-engine/peers/\x7bpeer_id\x7d/resolve",
    write "POST" "portfolio/amplification",
    read "portfolio/amplification/\x7bconsent_id\x7d/audience-preview",
    write "POST" "portfolio/amplification/\x7bconsent_id\x7d/campaign",
    write "POST" "portfolio/import-fans",
    read "portfolio/case-study"]

/-- The name in `\x7bname\x7d`. -/
def parameterName (pattern : String) : Option String :=
  (Text.strip "\x7b" pattern).bind (Text.stripEnd "\x7d")

def fitsSegment (pattern segment : String) : Bool :=
  match parameterName pattern with
  | some name =>
    if "_id".toList.isSuffixOf name.toList then uuidParses segment else safeSegment 128 segment
  | none => pattern = segment

def fitsAll : List String → List String → Bool
  | [], [] => true
  | pattern :: want, segment :: given => fitsSegment pattern segment && fitsAll want given
  | _, _ => false

def segments (path : String) : List String := (path.toList.splitOn '/').map String.ofList

def fits (template path : String) : Bool := fitsAll (segments template) (segments path)

def find (method path : String) : Option Surface :=
  surfaces.find? fun surface => surface.method = method && fits surface.path path

/-- A key of the query; one that is not text is on no list. -/
def queryKey (pair : List Char) : Option String :=
  Text.percentDecode (Text.replace '+' ' ' (String.ofList (pair.takeWhile (· ≠ '='))))

/-- The keys of `form_urlencoded::parse`. -/
def queryKeys (query : String) : List (Option String) :=
  ((query.toList.splitOn '&').filter (· ≠ [])).map queryKey

def splitQuery (fullPath : String) : String × String :=
  (Text.splitOnce '?' fullPath).getD (fullPath, "")

def allows (method fullPath : String) : Bool :=
  let (path, query) := splitQuery fullPath
  ((Text.strip upstreamPrefix path).bind (find method)).any fun surface =>
    query = "" || (queryKeys query).all fun key => key.any surface.query.contains

/-! ### Paths -/

def containsRequestWhitespace (value : String) : Bool :=
  value.toList.any fun c => c = '\r' || c = '\n' || c = ' ' || c = '\t'

def between (path start finish : String) : Option String :=
  (Text.strip start path).bind (Text.stripEnd finish)

def oneSafeSegment (path start : String) : Bool := (Text.strip start path).any (safeSegment 96)

def safeSegmentBetween (path start finish : String) : Bool :=
  (between path start finish).any (safeSegment 128)

def uuidSegmentBetween (path start finish : String) : Bool :=
  (between path start finish).any fun segment => segment ≠ "" && uuidParses segment

def operationsPrefix : String := "/v1/control-plane/ops/operations/"

def operationsSegment (path : String) : Bool := (Text.strip operationsPrefix path).any identifierSegment

def tracePrefix : String := "/v1/control-plane/ops/trace/"

def traceSegment (path : String) : Bool := uuidSegmentBetween path tracePrefix ""

def fansPrefix : String := "/v1/control-plane/audience/fans/"

/-- The fan and the tag of `…/fans/FAN/tags/TAG/remove`. -/
def fanTagParts (path : String) : Option (String × String) := do
  let tail ← Text.strip fansPrefix path
  let (fanId, tagPart) ← Text.splitOnceAt "/tags/" tail
  let tag ← Text.stripEnd "/remove" tagPart
  some (fanId, tag)

def validTag (tag : String) : Bool :=
  match tag.toList with
  | [] => false
  | first :: rest =>
    tag.utf8ByteSize ≤ 64 && (Text.isAsciiLowercase first || Text.isAsciiDigit first) &&
      rest.all fun c => Text.isAsciiLowercase c || Text.isAsciiDigit c || c = ':' || c = '_' || c = '-'

def fanTagPath (path : String) : Bool :=
  (fanTagParts path).any fun (fanId, tag) => uuidParses fanId && validTag tag

def standingApprovalsPrefix : String := "/v1/control-plane/autopilot/standing-approvals/"

def standingApprovalParts (path : String) : Option (String × String) :=
  (Text.strip standingApprovalsPrefix path).bind (Text.splitOnce '/')

def standingApprovalPath (path : String) : Bool :=
  (standingApprovalParts path).any fun (kind, key) =>
    identifierSegment kind && identifierSegment key && !key.toList.contains '/'

def nightsPrefix : String := "/v1/control-plane/nights/"

def nightConfirmParts (path : String) : Option (String × String) := do
  let tail ← Text.strip nightsPrefix path
  let (id, rest) ← Text.splitOnceAt "/acts/" tail
  let slug ← Text.stripEnd "/confirm" rest
  some (id, slug)

def nightConfirmPath (path : String) : Bool :=
  (nightConfirmParts path).any fun (id, slug) => uuidParses id && safeSegment 128 slug

def contributionKinds : List String := ["draw_estimate", "announce_status", "asks", "terms"]

def nightContributionParts (path : String) : Option (String × String) :=
  (Text.strip nightsPrefix path).bind (Text.splitOnceAt "/contributions/")

def nightContributionPath (path : String) : Bool :=
  (nightContributionParts path).any fun (id, kind) => uuidParses id && contributionKinds.contains kind

/-! ### The allowlist -/

inductive Matcher where
  | is (path : String)
  | startsWith (path : String)
  | uuidBetween (start finish : String)
  | safeBetween (start finish : String)
  | oneSafe (start : String)
  | operations
  | trace
  | fanTag
  | standingApproval
  | nightConfirm
  | nightContribution
deriving DecidableEq

def Matcher.accepts (path : String) : Matcher → Bool
  | .is literal => path = literal
  | .startsWith start => start.toList.isPrefixOf path.toList
  | .uuidBetween start finish => uuidSegmentBetween path start finish
  | .safeBetween start finish => safeSegmentBetween path start finish
  | .oneSafe start => oneSafeSegment path start
  | .operations => operationsSegment path
  | .trace => traceSegment path
  | .fanTag => fanTagPath path
  | .standingApproval => standingApprovalPath path
  | .nightConfirm => nightConfirmPath path
  | .nightContribution => nightContributionPath path

def getMatchers : List Matcher :=
  [.is "/v1/control-plane/ops/summary", .is "/v1/control-plane/ops/signal-overview",
    .is "/v1/control-plane/ops/attention", .is "/v1/control-plane/ops/funnel",
    .is "/v1/control-plane/ops/action-states", .is "/v1/control-plane/ops/intelligence",
    .is "/v1/control-plane/ops/outcomes", .is "/v1/control-plane/reward-fulfillments",
    .is "/v1/control-plane/ops/outbox", .is "/v1/control-plane/ops/deliveries",
    .is "/v1/control-plane/ops/delivery-results", .is "/v1/control-plane/ecosystem/flags",
    .is "/v1/control-plane/autopilot/overview", .is "/v1/control-plane/autopilot/growth",
    .is "/v1/control-plane/autopilot/next-best-actions",
    .is "/v1/control-plane/autopilot/opportunity-shortlist",
    .is "/v1/control-plane/autopilot/scorecard", .is "/v1/control-plane/autopilot/measurement",
    .is "/v1/control-plane/autopilot/reply-triage",
    .is "/v1/control-plane/autopilot/growth-metrics/coverage",
    .is "/v1/control-plane/autopilot/growth-metrics/trends",
    .is "/v1/control-plane/autopilot/objectives", .is "/v1/control-plane/autopilot/posture",
    .is "/v1/control-plane/autopilot/growth-envelope",
    .is "/v1/control-plane/autopilot/acquisition-channels",
    .is "/v1/control-plane/autopilot/tour-economics",
    .is "/v1/control-plane/autopilot/show-economics",
    .is "/v1/control-plane/autopilot/chief-of-staff",
    .is "/v1/control-plane/autopilot/capabilities",
    .is "/v1/control-plane/autopilot/outreach/candidates",
    .is "/v1/control-plane/autopilot/booking-discovery/candidates",
    .is "/v1/control-plane/autopilot/beacon-signal",
    .is "/v1/control-plane/autopilot/beacon-signal/candidates",
    .is "/v1/control-plane/autopilot/beacon-press-requests",
    .is "/v1/control-plane/autopilot/beacon-press-assets",
    .is "/v1/control-plane/autopilot/beacon-signal-engagements",
    .is "/v1/control-plane/autopilot/beacon-coverage",
    .is "/v1/control-plane/autopilot/beacon-network",
    .is "/v1/control-plane/autopilot/beacon-release-campaigns",
    .is "/v1/control-plane/autopilot/plays", .is "/v1/control-plane/autopilot/learning-loop",
    .is "/v1/control-plane/autopilot/learning-proof",
    .is "/v1/control-plane/autopilot/content-sources", .is "/v1/control-plane/content/pipeline",
    .is "/v1/control-plane/portfolio/overview", .is "/v1/control-plane/portfolio/amplification",
    .is "/v1/control-plane/tenant-settings", .is "/v1/control-plane/tenant-settings/north-stars",
    .is "/v1/control-plane/tenant-settings/intents", .is "/v1/control-plane/secrets",
    .is "/v1/control-plane/fanbases", .is "/v1/control-plane/fanbases/connections",
    .is "/v1/control-plane/gdrive/contacts", .is "/v1/control-plane/contacts/dual-role",
    .is "/v1/control-plane/listing", .is "/v1/control-plane/attestations",
    .is "/v1/control-plane/representation/targets", .is "/v1/control-plane/webhook-endpoints",
    .is "/v1/control-plane/audience/overview", .is "/v1/control-plane/audience/acquisition-sources",
    .is "/v1/control-plane/audience/city-funnel", .is "/v1/control-plane/audience/city-venues",
    .is "/v1/control-plane/views/content-material",
    .is "/v1/control-plane/audience/registry-verification-brief",
    .is "/v1/control-plane/audience/fans", .is "/v1/control-plane/audience/segments",
    .is "/v1/control-plane/ops/actions", .is "/v1/control-plane/ops/fan-sources",
    .is "/v1/control-plane/processes/relays",
    .is "/v1/control-plane/community-intelligence/communities", .is "/v1/control-plane/events",
    .is "/v1/control-plane/audience-graph/places", .is "/v1/control-plane/autopilot/cycle/preview",
    .is "/v1/control-plane/autopilot/negotiations", .is "/v1/control-plane/gig-plan",
    .startsWith "/v1/control-plane/audience-graph/places?",
    .startsWith "/v1/control-plane/gdrive/contacts?", .startsWith "/v1/control-plane/gig-plan?",
    .startsWith "/v1/control-plane/ops/outbox?", .startsWith "/v1/control-plane/ops/deliveries?",
    .startsWith "/v1/control-plane/ops/delivery-results?",
    .startsWith "/v1/control-plane/ops/actions?", .startsWith "/v1/control-plane/ops/fan-sources?",
    .startsWith "/v1/control-plane/audience/fans?",
    .startsWith "/v1/control-plane/audience/city-funnel?",
    .startsWith "/v1/control-plane/autopilot/outreach/candidates?",
    .startsWith "/v1/control-plane/autopilot/booking-discovery/candidates?",
    .uuidBetween "/v1/control-plane/ops/deliveries/" "",
    .uuidBetween "/v1/control-plane/ops/actions/" "",
    .uuidBetween "/v1/control-plane/processes/relays/" "",
    .uuidBetween "/v1/control-plane/audience/fans/" "",
    .uuidBetween "/v1/control-plane/audience/fans/" "/journey",
    .safeBetween "/v1/control-plane/audience/segments/" "/preview",
    .safeBetween "/v1/control-plane/events/" "/timeline",
    .safeBetween "/v1/control-plane/events/" "/scan",
    .safeBetween "/v1/control-plane/events/" "/report",
    .safeBetween "/v1/control-plane/views/cities/" "",
    .safeBetween "/v1/control-plane/events/" "/who-can-help",
    .uuidBetween "/v1/control-plane/autopilot/beacon-release-campaigns/" "/recipients",
    .uuidBetween "/v1/control-plane/autopilot/decisions/" "/evidence",
    .is "/v1/control-plane/autopilot/standing-approvals", .is "/v1/control-plane/booking-agents",
    .uuidBetween "/v1/control-plane/autopilot/events/" "/growth-ladder",
    .uuidBetween "/v1/control-plane/autopilot/actions/" "/sent",
    .uuidBetween "/v1/control-plane/community-intelligence/communities/" "/observations",
    .uuidBetween "/v1/control-plane/community-intelligence/communities/" "/entities",
    .uuidBetween "/v1/control-plane/community-intelligence/communities/" "/intro-draft",
    .uuidBetween "/v1/control-plane/nights/" "", .uuidBetween "/v1/public/nights/" "", .operations,
    .trace]

def postMatchers : List Matcher :=
  [.is "/v1/control-plane/autopilot/beacon-press-assets",
    .is "/v1/control-plane/ops/deliveries/dead/clear", .is "/v1/control-plane/ecosystem/reconcile",
    .is "/v1/control-plane/autopilot/objectives", .is "/v1/control-plane/autopilot/posture",
    .is "/v1/control-plane/autopilot/growth-envelope",
    .is "/v1/control-plane/autopilot/content-sources",
    .is "/v1/control-plane/autopilot/beacon-network", .is "/v1/control-plane/autopilot/cycle/run",
    .is "/v1/control-plane/events", .is "/v1/control-plane/media",
    .uuidBetween "/v1/control-plane/ops/outbox/" "/retry",
    .uuidBetween "/v1/control-plane/ops/deliveries/" "/retry",
    .uuidBetween "/v1/control-plane/ops/push/" "/retry",
    .oneSafe "/v1/control-plane/ecosystem/flags/", .oneSafe "/v1/control-plane/autopilot/policies/",
    .uuidBetween "/v1/control-plane/autopilot/team-opportunities/" "/terms",
    .uuidBetween "/v1/control-plane/autopilot/actions/" "/approve",
    .uuidBetween "/v1/control-plane/autopilot/actions/" "/cancel",
    .uuidBetween "/v1/control-plane/autopilot/community-relays/" "/approve",
    .uuidBetween "/v1/control-plane/autopilot/community-relays/" "/revoke",
    .uuidBetween "/v1/control-plane/autopilot/events/" "/growth-ladder/approve",
    .uuidBetween "/v1/control-plane/autopilot/events/" "/growth-ladder/revoke",
    .uuidBetween "/v1/control-plane/autopilot/decisions/" "/handled-externally",
    .uuidBetween "/v1/control-plane/autopilot/objectives/" "/retire",
    .uuidBetween "/v1/control-plane/autopilot/outreach/candidates/" "/confirm",
    .uuidBetween "/v1/control-plane/autopilot/booking-discovery/candidates/" "/confirm",
    .is "/v1/control-plane/booking-agents/approach",
    .is "/v1/control-plane/booking-agents/approach-wave",
    .uuidBetween "/v1/control-plane/booking-agents/" "/reply",
    .uuidBetween "/v1/control-plane/booking-agents/" "/reply-draft",
    .uuidBetween "/v1/control-plane/autopilot/beacon-press-requests/" "/resolve",
    .is "/v1/control-plane/autopilot/beacons",
    .is "/v1/control-plane/autopilot/beacons/signal-invites/batch",
    .uuidBetween "/v1/control-plane/autopilot/beacons/" "/signal-invites",
    .uuidBetween "/v1/control-plane/autopilot/beacons/" "/signal-state",
    .uuidBetween "/v1/control-plane/autopilot/beacons/" "/reply",
    .uuidBetween "/v1/control-plane/contacts/" "/latarnik-invite",
    .is "/v1/control-plane/gig-plan/approve",
    .is "/v1/control-plane/autopilot/beacon-release-campaigns",
    .uuidBetween "/v1/control-plane/autopilot/beacon-release-campaigns/" "/launch",
    .uuidBetween "/v1/control-plane/autopilot/beacon-release-campaigns/" "/close",
    .uuidBetween "/v1/control-plane/portfolio/amplification/" "/decide",
    .oneSafe "/v1/control-plane/tenant-settings/", .is "/v1/control-plane/fanbases",
    .is "/v1/control-plane/fanbases/connections", .is "/v1/control-plane/gdrive/scan",
    .is "/v1/control-plane/gdrive/contacts/upload",
    .is "/v1/control-plane/gdrive/contacts/promote-batch", .is "/v1/control-plane/listing",
    .is "/v1/control-plane/listing/publish", .is "/v1/control-plane/listing/unlist",
    .is "/v1/control-plane/listing/rotate-token", .is "/v1/control-plane/attestations",
    .safeBetween "/v1/control-plane/attestations/" "/revoke",
    .safeBetween "/v1/control-plane/attestations/" "/rotate",
    .is "/v1/control-plane/representation/targets", .is "/v1/control-plane/representation/approach",
    .uuidBetween "/v1/control-plane/gdrive/contacts/" "/promote",
    .uuidBetween "/v1/control-plane/gdrive/contacts/" "/dismiss",
    .uuidBetween "/v1/control-plane/community-intelligence/communities/" "/membership",
    .is "/v1/control-plane/audience-graph/places",
    .is "/v1/control-plane/audience-graph/places/import",
    .is "/v1/control-plane/connections/discord", .is "/v1/control-plane/connections/telegram",
    .is "/v1/control-plane/connections/lastfm", .is "/v1/control-plane/connections/deezer",
    .is "/v1/control-plane/connections/discogs", .is "/v1/control-plane/connections/bluesky",
    .is "/v1/control-plane/connections/bandcamp", .is "/v1/control-plane/connections/youtube",
    .is "/v1/control-plane/connections/facebook", .is "/v1/control-plane/connections/instagram",
    .is "/v1/control-plane/connections/soundcloud", .is "/v1/control-plane/connections/reddit",
    .uuidBetween "/v1/control-plane/fanbases/" "/ingest",
    .uuidBetween "/v1/control-plane/audience/fans/" "/tags", .fanTag,
    .uuidBetween "/v1/control-plane/audience/fans/" "/referral-code",
    .uuidBetween "/v1/control-plane/community-posts/" "/register-manual",
    .uuidBetween "/v1/control-plane/social-posts/" "/register-manual",
    .uuidBetween "/v1/control-plane/nights/" "/contributions",
    .uuidBetween "/v1/control-plane/nights/" "/organiser-link", .nightConfirm]

def putMatchers : List Matcher :=
  [.safeBetween "/v1/control-plane/events/" "/acts",
    .safeBetween "/v1/control-plane/events/" "/counterparty", .oneSafe "/v1/control-plane/secrets/"]

def patchMatchers : List Matcher :=
  [.uuidBetween "/v1/control-plane/fanbases/connections/" "/scan-scope"]

def deleteMatchers : List Matcher :=
  [.uuidBetween "/v1/control-plane/fanbases/" "",
    .uuidBetween "/v1/control-plane/fanbases/connections/" "",
    .uuidBetween "/v1/control-plane/nights/" "/organiser-link", .nightContribution,
    .oneSafe "/v1/control-plane/secrets/", .standingApproval]

def matchers : String → List Matcher
  | "GET" => getMatchers
  | "POST" => postMatchers
  | "PUT" => putMatchers
  | "PATCH" => patchMatchers
  | "DELETE" => deleteMatchers
  | _ => []

def validOperationsRequest (method path : String) : Bool :=
  allows method path || (matchers method).any (·.accepts path)

end ControlPlane.Upstream
