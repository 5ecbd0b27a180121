import ControlPlane.Interleave.Trace
import ControlPlane.Upstream.Framing
import ControlPlane.Url

/-!
# Outbound notifications

Where a notifier channel may point, and how a notification is delivered. A name is looked up twice:
by the guard, and by the HTTP client that connects.
-/

namespace ControlPlane.Notifier

open Interleave Interleave.Task
open ControlPlane.Upstream (eqIgnoreAsciiCase digitsValue)

/-! ### Addresses -/

inductive Ip where
  | v4 (a b c d : Fin 256)
  | v6 (segments : Vector (Fin 65536) 8)
deriving DecidableEq

def isCgnatV4 (a b : Fin 256) : Bool := a = 100 && b &&& 0xc0 = 64

def isDocumentationV4 (a b c : Fin 256) : Bool :=
  (a = 192 && b = 0 && c = 2) || (a = 198 && b = 51 && c = 100) || (a = 203 && b = 0 && c = 113)

def isPrivateV4 (a b : Fin 256) : Bool :=
  a = 10 || (a = 172 && 16 ≤ b && b ≤ 31) || (a = 192 && b = 168)

def blockedV4 (a b c d : Fin 256) : Bool :=
  a = 127 || isPrivateV4 a b || (a = 169 && b = 254) || (224 ≤ a && a ≤ 239) ||
    (a = 255 && b = 255 && c = 255 && d = 255) || (a = 0 && b = 0 && c = 0 && d = 0) ||
    isDocumentationV4 a b c || isCgnatV4 a b

def loopbackV6 : Vector (Fin 65536) 8 := #v[0, 0, 0, 0, 0, 0, 0, 1]

def unspecifiedV6 : Vector (Fin 65536) 8 := #v[0, 0, 0, 0, 0, 0, 0, 0]

def blockedV6 (segments : Vector (Fin 65536) 8) : Bool :=
  segments = loopbackV6 || segments[0] &&& 0xfe00 = 0xfc00 || segments[0] &&& 0xffc0 = 0xfe80 ||
    segments[0] &&& 0xff00 = 0xff00 || segments = unspecifiedV6

def isBlockedIp : Ip → Bool
  | .v4 a b c d => blockedV4 a b c d
  | .v6 segments => blockedV6 segments

/-- The groups of a part of an IPv6 address. -/
def groups (part : String) : List (Option Nat) :=
  ((part.toList.splitOn ':').filter (· ≠ [])).map (digitsValue 16)

def segmentsOf (address : String) : Option (Vector (Fin 65536) 8) := do
  let all ←
    match Text.splitOnceAt "::" address with
    | some (before, after) => do
      let high ← (groups before).mapM id
      let low ← (groups after).mapM id
      pure (high ++ List.replicate (8 - high.length - low.length) 0 ++ low)
    | none => (groups address).mapM id
  if all.length = 8 then some (Vector.ofFn fun i => Fin.ofNat 65536 (all.getD i 0)) else none

def isMetadataDnsName (name : String) : Bool :=
  eqIgnoreAsciiCase name "metadata.google.internal" || eqIgnoreAsciiCase name "metadata" ||
    eqIgnoreAsciiCase name "169.254.169.254"

/-- A host of the `url` crate is a name only if it is no address in text. -/
def isBlockedHost (url : Url) : Bool :=
  match url.host with
  | some (.domain name _ _) => isMetadataDnsName name
  | some (.ipv4 a b c d) => blockedV4 a b c d
  | some (.ipv6 address _ _) => (segmentsOf address).all blockedV6
  | none => true

/-! ### Channels -/

def discordHosts : List String := ["discord.com", "discordapp.com"]

def validRecipient (recipient : String) : Bool :=
  3 ≤ recipient.utf8ByteSize && recipient.utf8ByteSize ≤ 254 &&
    Text.all (fun c => Text.isAsciiAlphanumeric c || ['@', '.', '-', '_', '+'].contains c) recipient &&
    recipient.toList.count '@' = 1 && !recipient.toList.head?.any (['@', '.', '-'].contains ·) &&
    !recipient.toList.getLast?.any (['@', '.', '-'].contains ·)

def notifierTarget (crates : Crates) (kind : String) (value : Option String) :
    Except ApiError Json :=
  match kind with
  | "discord" => do
    let raw ← value.elim (.error (.invalidInput "discord channel requires url")) .ok
    let parsed ← (crates.parseUrl (Text.trim raw)).elim
      (.error (.invalidInput "invalid discord webhook URL")) .ok
    if parsed.scheme ≠ "https" ∨ ¬ (parsed.host.map Host.asStr).any discordHosts.contains ∨
        ¬ "/api/webhooks/".toList.isPrefixOf parsed.path.toList then
      .error (.invalidInput "discord channel requires an https://discord.com/api/webhooks/... URL")
    else .ok (.obj [("url", .str parsed.asStr)])
  | "webhook" => do
    let raw ← value.elim (.error (.invalidInput "webhook channel requires url")) .ok
    let parsed ← (crates.parseUrl (Text.trim raw)).elim
      (.error (.invalidInput "invalid webhook URL")) .ok
    if parsed.scheme ≠ "https" ∨ parsed.host.isNone ∨ 512 < parsed.asStr.utf8ByteSize ∨
        parsed.username ≠ "" ∨ parsed.password.isSome then
      .error (.invalidInput
        "webhook channel requires a plain HTTPS URL without embedded credentials")
    else if isBlockedHost parsed then
      .error (.invalidInput
        "webhook target must not point to a private, loopback, or metadata address")
    else .ok (.obj [("url", .str parsed.asStr)])
  | "email_relay" => do
    let raw ← value.elim (.error (.invalidInput "email_relay channel requires recipient email")) .ok
    let recipient := Text.trim raw
    if validRecipient recipient then .ok (.obj [("to", .str recipient)])
    else .error (.invalidInput "email_relay channel requires a valid recipient address")
  | _ => .error (.invalidInput "kind must be one of discord, webhook, email_relay")

/-! ### Deliveries -/

inductive Op where
  | lookup (name : String)
  /-- The order in which the HTTP client tries the addresses it has. -/
  | arrange (addresses : List Ip)
  | dial (address : Ip)
  | post (body : Json)

@[reducible]
def Op.Result : Op → Type
  | .lookup _ => Option (List Ip)
  | .arrange addresses => { order : List Ip // order.Perm addresses }
  | .dial _ => Bool
  | .post _ => Option Nat

abbrev Delivery := Task Op Op.Result String

def refusesBlocked (name : String) (addresses : List Ip) : Except String Unit :=
  if addresses.any isBlockedIp then
    .error ("webhook target " ++ name ++ " resolves to a blocked address")
  else .ok ()

/-- A lookup that fails lets the request pass. -/
def guardWebhookUrl (crates : Crates) (url : String) : Delivery Unit := do
  let parsed ← require ((crates.parseUrl url).elim (.error "invalid webhook URL") .ok)
  ensure (isBlockedHost parsed = false) "webhook target points to a blocked address"
  match parsed.host with
  | some (.domain name _ _) =>
    match ← ask (Op.lookup name) with
    | some addresses => require (refusesBlocked name addresses)
    | none => pure ()
  -- an address in text is looked up as itself, and has just been checked
  | some (.ipv4 _ _ _ _) | some (.ipv6 _ _ _) | none => pure ()

def dialEach : List Ip → Delivery Bool
  | [] => pure false
  | address :: rest => do
    if ← ask (Op.dial address) then pure true else dialEach rest

/-- The addresses the HTTP client has for a host. -/
def addressesOf : Option Host → Delivery (Option (List Ip))
  | some (.domain name _ _) => ask (Op.lookup name)
  | some (.ipv4 a b c d) => pure (some [.v4 a b c d])
  | some (.ipv6 address _ _) => pure ((segmentsOf address).map fun segments => [.v6 segments])
  | none => pure none

def sendError (url : String) : String :=
  "delivery failed: error sending request for url (" ++ url ++ ")"

/-- The request over a connection to one of the addresses; the status of the response. -/
def transmit (url : String) (body : Json) (addresses : List Ip) : Delivery Nat := do
  let order ← ask (Op.arrange addresses)
  ensure ((← dialEach order.1) = true) (sendError url)
  require ((← ask (Op.post body)).elim (.error (sendError url)) .ok)

/-- `reqwest`'s `post`, without redirects. -/
def send (crates : Crates) (url : String) (body : Json) : Delivery Nat := do
  let parsed ← require ((crates.parseUrl url).elim (.error "delivery failed: builder error") .ok)
  match ← addressesOf parsed.host with
  | none => throw (sendError parsed.asStr)
  | some addresses => transmit parsed.asStr body addresses

def postJson (crates : Crates) (url : String) (body : Json) : Delivery Unit := do
  guardWebhookUrl crates url
  let status ← send crates url body
  ensure (200 ≤ status ∧ status < 300) ("destination answered HTTP " ++ toString status)

/-! ### Messages -/

/-- A text of exactly the limit gets its ellipsis too. -/
def truncate (value : String) (limit : Nat) : String :=
  if value.length < limit then value else String.ofList (value.toList.take limit) ++ "…"

structure Client where
  crates : Crates
  render : Json → String
  emailRelayUrl : Option String

def textAt (name : String) (document : Json) : Option String := (document.get name).bind Json.asStr

def Client.summarize (client : Client) (payload : Json) : String :=
  let parts :=
    ((textAt "errorCode" payload).map ("code=" ++ ·)).toList ++ (textAt "errorDetail" payload).toList ++
      ((textAt "health" payload).map fun health => ("health=" ++ health) ::
        ((textAt "previousHealth" payload).map fun was => "(was " ++ was ++ ")").toList).getD [] ++
      ((textAt "desiredVersion" payload).map ("version=" ++ ·)).toList
  truncate (" · ".intercalate (if parts = [] then [client.render payload] else parts)) 800

def Client.message (client : Client) (kind label : String) (config : Json) (event : String)
    (payload : Json) : Except String (String × Json) :=
  match kind with
  | "discord" => do
    let url ← (textAt "url" config).elim (.error "channel config is missing url") .ok
    let content := "[" ++ event ++ "] " ++ label ++ "\n" ++ client.summarize payload
    pure (url, .obj [("content", .str (truncate content 1900)),
      ("allowed_mentions", .obj [("parse", .arr [])])])
  | "webhook" => do
    let url ← (textAt "url" config).elim (.error "channel config is missing url") .ok
    pure (url, .obj [("source", .str "crowdrelay-control-plane"), ("channel", .str label),
      ("event", .str event), ("data", payload)])
  | "email_relay" => do
    let relay ← client.emailRelayUrl.elim (.error "the platform email relay is not configured") .ok
    let recipient ← (textAt "to" config).elim (.error "channel config is missing recipient") .ok
    let subject := "CrowdRelay [" ++ event ++ "] " ++ label
    pure (relay, .obj [("to", .str recipient), ("subject", .str subject),
      ("text", .str (event ++ "\n\n" ++ client.summarize payload))])
  | other => .error ("unknown channel kind: " ++ other)

def Client.deliver (client : Client) (kind label : String) (config : Json) (event : String)
    (payload : Json) : Delivery Unit := do
  let (url, body) ← require (client.message kind label config event payload)
  postJson client.crates url body

end ControlPlane.Notifier
