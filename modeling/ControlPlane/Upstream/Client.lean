import ControlPlane.Interleave.Run
import ControlPlane.Upstream.Allowlist
import ControlPlane.Upstream.Framing
import ControlPlane.Url

/-!
# The client of the tenants' services

A request is checked, written to a connection and its response read back. Connections left clean are
kept for their address; an exchange that fails on one is tried once more on a new one.
-/

namespace ControlPlane.Upstream

open Interleave Interleave.Task

def poolMaxPerTarget : Nat := 12

def poolIdleTimeout : Int := seconds 30

/-! ### Operations -/

inductive Op where
  | takePooled (address : String)
  | connect (address : String)
  | write (conn : Nat) (wire : Bytes)
  | read (conn : Nat)
  | returnPooled (address : String) (conn : Nat)
  | sweepPool
deriving DecidableEq

/-- A write succeeds or not; a read fails, gives bytes, or none when the service has closed. -/
@[reducible]
def Op.Result : Op → Type
  | .takePooled _ => Option Nat
  | .connect _ => Except ApiError Nat
  | .write _ _ => Bool
  | .read _ => Option Bytes
  | .returnPooled _ _ | .sweepPool => Unit

abbrev Exchange := Task Op Op.Result ApiError

/-! ### Reading a response -/

def readSize : Nat := 8192

abbrev Grown (buf : Bytes) : Type :=
  { grown : Bytes // buf.length < grown.length ∧ grown.length ≤ maxResponseBytes }

/-- One read into the buffer; nothing when the service has closed. -/
def readInto (conn : Nat) (buf : Bytes) : Exchange (Option (Grown buf)) := do
  match ← ask (Op.read conn) with
  | none => throw .unreachable
  | some [] => pure none
  | some (b :: bs) =>
    if hroom : (buf ++ b :: bs).length ≤ maxResponseBytes then
      pure (some ⟨buf ++ b :: bs, by simp, hroom⟩)
    else throw (.contractMismatch "upstream response exceeded limit")

def readUntil (conn : Nat) (done : Bytes → Bool) (buf : Bytes) : Exchange Bytes := do
  if done buf then pure buf
  else
    match ← readInto conn buf with
    | none => pure buf
    | some grown => readUntil conn done grown.1
termination_by maxResponseBytes - buf.length
decreasing_by
  exact Nat.sub_lt_sub_left (Nat.lt_of_lt_of_le grown.2.1 grown.2.2) grown.2.1

def headersComplete (buf : Bytes) : Bool := (findHeaderTerminator buf).isSome

/-- Read on for what may follow the terminator. -/
def readTrailers (conn : Nat) (buf : Bytes) : Exchange Bytes := do
  let target := buf.length + 256
  match ← readInto conn buf with
  | none => pure buf
  | some grown =>
    readUntil conn (fun buf => headerTerminator.isSuffixOf buf || target ≤ buf.length) grown.1

def readChunked (conn bodyStart : Nat) (buf : Bytes) : Exchange (Bytes × Bool) := do
  let buf ← readUntil conn
    (fun buf => endsWithTerminator bodyStart buf || findChunkTerminator (buf.drop bodyStart)) buf
  if endsWithTerminator bodyStart buf then pure (buf, true)
  else if findChunkTerminator (buf.drop bodyStart) then
    let buf ← readTrailers conn buf
    pure (buf, true)
  else pure (buf, false)

def readSized (conn needed : Nat) (buf : Bytes) : Exchange (Bytes × Bool) := do
  let buf ← readUntil conn (fun buf => needed ≤ buf.length) buf
  ensure (needed ≤ buf.length) (.contractMismatch "truncated upstream response")
  pure (buf, true)

def readToEnd (conn : Nat) (buf : Bytes) : Exchange (Bytes × Bool) := do
  let buf ← readUntil conn (fun _ => false) buf
  pure (buf, false)

/-- The body of a response whose header block has been read. Adding up `usize` values wraps around. -/
def readBody (conn headerEnd : Nat) (framing : Framing) (buf : Bytes) : Exchange (Bytes × Bool) :=
  if framing.connectionClose then readToEnd conn buf
  else if framing.transferChunked then readChunked conn (headerEnd + 4) buf
  else
    match framing.contentLength with
    | some contentLength => readSized conn ((headerEnd + 4 + contentLength) % usizeBound) buf
    | none => readToEnd conn buf

/-- The response and whether the connection can be used again. -/
def readFramedResponse (conn : Nat) : Exchange (Bytes × Bool) := do
  let buf ← readUntil conn headersComplete []
  match findHeaderTerminator buf with
  | none =>
    throw (if buf = [] then .unreachable
      else .contractMismatch "upstream closed before sending complete headers")
  | some headerEnd =>
    if statusHasNoBody (buf.take headerEnd) then pure (buf.take (headerEnd + 4), true)
    else
      let framing ← require (parseResponseFraming (buf.take headerEnd))
      readBody conn headerEnd framing buf

/-! ### Exchanges -/

def connect (address : String) : Exchange Nat := do
  require (← ask (Op.connect address))

def attempt (conn : Nat) (wire : Bytes) : Exchange (Bytes × Bool) := do
  ensure ((← ask (Op.write conn wire)) = true) .unreachable
  readFramedResponse conn

/-- Keep the connection if it is clean, and hand the response on. -/
def settle (address : String) (conn : Nat) : Bytes × Bool → Exchange Bytes
  | (response, canReuse) => do
    if canReuse then ask (Op.returnPooled address conn)
    pure response

def exchangeAnew (address : String) (wire : Bytes) : Exchange Bytes := do
  let conn ← connect address
  settle address conn (← attempt conn wire)

/-- Whatever fails on a reused connection is tried again on a new one. -/
def exchange (address : String) (wire : Bytes) : Exchange Bytes := do
  match ← ask (Op.takePooled address) with
  | none => exchangeAnew address wire
  | some conn =>
    match ← outcome (attempt conn wire) with
    | .ok answered => settle address conn answered
    | .error _ => exchangeAnew address wire

/-! ### Targets -/

def privateV4 (a b : Nat) : Bool :=
  a = 127 || a = 10 || (a = 172 && 16 ≤ b && b ≤ 31) || (a = 192 && b = 168)

/-- The loopback address and `fc00::/7`, as the `url` crate writes them. -/
def privateV6 (address : String) : Bool :=
  address = "::1" ||
    (let first := address.toList.takeWhile (· ≠ ':')
     first.length = 4 && (['f', 'c'].isPrefixOf first || ['f', 'd'].isPrefixOf first))

def isPrivateDnsName (name : String) : Bool :=
  eqIgnoreAsciiCase name "localhost" || eqIgnoreAsciiCase name "host.docker.internal" ||
    (name.toList.contains '-' && !name.toList.contains '.' &&
      Text.all (fun c => Text.isAsciiAlphanumeric c || c = '-' || c = '_') name)

def isPrivateTarget (url : Url) : Bool :=
  match url.host with
  | some (.domain name _ _) => isPrivateDnsName name
  | some (.ipv4 a b _ _) => privateV4 a b
  | some (.ipv6 address _ _) => privateV6 address
  | none => false

def validateManagementTarget (crates : Crates) (value : String) : Except ApiError Url := do
  let parsed ← (crates.parseUrl value).elim (.error (.invalidInput "invalid upstream target")) .ok
  if parsed.scheme ≠ "http" ∨ parsed.username ≠ "" ∨ parsed.password ≠ none ∨ parsed.query ≠ none ∨
      parsed.fragment ≠ none ∨ (parsed.path ≠ "" ∧ parsed.path ≠ "/") then
    throw (.invalidInput "upstream target must be a bare private HTTP origin")
  if !isPrivateTarget parsed then
    throw (.invalidInput "upstream target must be loopback or private")
  pure parsed

def portOrDefault (url : Url) : Nat := url.port.getD 80

/-- The host of an IPv6 URL comes with its brackets. -/
def formatHostPort (host : String) (port : Nat) : String := host ++ ":" ++ toString port

def hostHeader (host : String) (explicitPort : Option Nat) (resolvedPort : Nat) : String :=
  if explicitPort.isSome ∨ resolvedPort ≠ 80 then host ++ ":" ++ toString resolvedPort else host

/-! ### Requests -/

def validIdempotencyKey (value : String) : Bool :=
  8 ≤ value.utf8ByteSize && value.utf8ByteSize ≤ 128 &&
    value.toList.all fun c => 0x21 ≤ c.toNat && c.toNat ≤ 0x7E && c ≠ '"' && c ≠ '\\'

def validCorrelationId (value : String) : Bool :=
  8 ≤ value.utf8ByteSize && value.utf8ByteSize ≤ 128 &&
    value.toList.all fun c => '!' ≤ c && c ≤ '~'

inductive RequestBody where
  | none
  | json (value : Json)
  | binary (bytes : Bytes) (contentType : String) (fileName : Option String)

structure Client where
  crates : Crates
  decoders : Decoders
  render : Json → String
  hmacSha256 : Bytes → Bytes → Bytes
  masterKey : Option String
  managementMasterKey : Option String

def Client.bodyBytes (client : Client) : RequestBody → Bytes
  | .none => []
  | .json value => utf8 (client.render value)
  | .binary bytes _ _ => bytes

def RequestBody.contentType : RequestBody → Option String
  | .none => Option.none
  | .json _ => some "application/json"
  | .binary _ contentType _ => some contentType

def RequestBody.fileName : RequestBody → Option String
  | .none | .json _ => Option.none
  | .binary _ _ fileName =>
    fileName.filter fun name => name ≠ "" && name.toList.all fun c => 0x20 ≤ c.toNat && c.toNat ≤ 0x7E

structure Asked where
  method : String
  pathAndQuery : String
  body : RequestBody
  correlationId : Option String
  idempotencyKey : Option String

def contentLengthHeader (method : String) (contentType : Option String) (length : Nat) :
    List (String × String) :=
  if contentType.isSome ∨ method = "POST" ∨ method = "PATCH" then
    [("Content-Length", toString length)]
  else []

def Client.headers (client : Client) (asked : Asked) (host token : String) : List (String × String) :=
  [("Host", host), ("Authorization", "Bearer " ++ token), ("Accept", "application/json"),
      ("Accept-Encoding", "gzip, deflate"), ("Connection", "keep-alive")] ++
    ((asked.correlationId.filter validCorrelationId).map fun id =>
      ("X-CrowdRelay-Correlation-Id", id)).toList ++
    (asked.idempotencyKey.map fun key => ("Idempotency-Key", key)).toList ++
    (asked.body.contentType.map fun contentType => ("Content-Type", contentType)).toList ++
    (asked.body.fileName.map fun name => ("X-Media-Name", name)).toList ++
    contentLengthHeader asked.method asked.body.contentType (client.bodyBytes asked.body).length

def headerText (headers : List (String × String)) : String :=
  String.join (headers.map fun (name, value) => name ++ ": " ++ value ++ "\r\n")

def Client.wire (client : Client) (asked : Asked) (host token : String) : Bytes :=
  utf8 (asked.method ++ " " ++ asked.pathAndQuery ++ " HTTP/1.1\r\n" ++
    headerText (client.headers asked host token) ++ "\r\n") ++ client.bodyBytes asked.body

/-- What the caller gets, with the response it was made from. -/
structure Answer where
  response : Bytes
  result : Except ApiError Json

def Client.outgoing (client : Client) (baseUrl : String) (asked : Asked) (token : String) :
    Except ApiError (String × Bytes) := do
  let target ← validateManagementTarget client.crates baseUrl
  let host ← target.host.elim (.error (.invalidInput "management target has no host")) .ok
  let port := portOrDefault target
  pure (formatHostPort host.asStr port,
    client.wire asked (hostHeader host.asStr target.port port) token)

def Client.requestAuthorized (client : Client) (baseUrl : String) (asked : Asked) (token : String) :
    Exchange Answer := do
  let (address, wire) ← require (client.outgoing baseUrl asked token)
  let response ← exchange address wire
  pure ⟨response, parseResponse client.decoders response⟩

/-! ### Entry points -/

def areaNamespace : String := "crowdrelay-area-admin-v1:"

def controlPlaneNamespace : String := "crowdrelay-control-plane-v1:"

def hexBytes (bytes : Bytes) : String := String.join (bytes.map fun b => Text.hex 2 b.toNat)

def Client.derivedToken (client : Client) (masterKey : Option String) (scope : String) (tenantId : Uuid)
    (missingMessage : String) : Except ApiError String :=
  match masterKey with
  | none => .error (.unavailable missingMessage)
  | some key => .ok (hexBytes (client.hmacSha256 (utf8 key) (utf8 (scope ++ tenantId.hyphenated))))

def Client.areaToken (client : Client) (tenantId : Uuid) : Except ApiError String :=
  client.derivedToken client.masterKey areaNamespace tenantId "upstream is not configured"

def Client.managementToken (client : Client) (tenantId : Uuid) : Except ApiError String :=
  client.derivedToken client.managementMasterKey controlPlaneNamespace tenantId
    "tenant operations are not configured"

def areaPath : String := "/v1/control-plane/area"

def validAreaPath (pathAndQuery : String) : Bool :=
  let path := (splitQuery pathAndQuery).1
  pathAndQuery.utf8ByteSize ≤ 2048 && (path = areaPath || (areaPath ++ "/").toList.isPrefixOf path.toList) &&
    !containsRequestWhitespace pathAndQuery

/-- The checks of `request`, and the token; a mutation without a key is let through. -/
def Client.checkRequest (client : Client) (tenantId : Uuid) (asked : Asked) :
    Except ApiError String := do
  if !validAreaPath asked.pathAndQuery then throw (.invalidInput "invalid upstream path")
  if !(["GET", "POST", "PATCH", "DELETE"].contains asked.method) then
    throw (.invalidInput "invalid upstream method")
  if ["POST", "PATCH", "DELETE"].contains asked.method &&
      asked.idempotencyKey.any (fun key => !validIdempotencyKey key) then
    throw (.invalidInput "valid Idempotency-Key is required for AREA mutations")
  client.areaToken tenantId

def Client.request (client : Client) (tenantId : Uuid) (baseUrl : String) (asked : Asked) :
    Exchange Answer := do
  let token ← require (client.checkRequest tenantId asked)
  client.requestAuthorized baseUrl asked token

def allowed (method path : String) : Bool :=
  validOperationsRequest method path && !containsRequestWhitespace path

/-- A key is required of `POST` only, but one that is given has to be valid. -/
def Client.checkManagement (client : Client) (tenantId : Uuid) (asked : Asked) :
    Except ApiError String := do
  if !allowed asked.method asked.pathAndQuery then
    throw (.invalidInput "invalid tenant operations request")
  if asked.method = "POST" && !asked.idempotencyKey.any validIdempotencyKey then
    throw (.invalidInput "valid Idempotency-Key is required for tenant operation mutations")
  if asked.idempotencyKey.any (fun key => !validIdempotencyKey key) then
    throw (.invalidInput "invalid Idempotency-Key")
  client.managementToken tenantId

def Client.requestManagement (client : Client) (tenantId : Uuid) (baseUrl : String) (asked : Asked) :
    Exchange Answer := do
  let token ← require (client.checkManagement tenantId asked)
  client.requestAuthorized baseUrl asked token

structure Upload where
  path : String
  bytes : Bytes
  contentType : String
  fileName : Option String
  correlationId : Option String
  idempotencyKey : Option String

def Upload.asked (upload : Upload) : Asked where
  method := "POST"
  pathAndQuery := upload.path
  body := .binary upload.bytes upload.contentType upload.fileName
  correlationId := upload.correlationId
  idempotencyKey := upload.idempotencyKey

def Client.checkUpload (client : Client) (tenantId : Uuid) (upload : Upload) :
    Except ApiError String := do
  if !allowed "POST" upload.path then throw (.invalidInput "invalid tenant operations request")
  if !upload.idempotencyKey.any validIdempotencyKey then
    throw (.invalidInput "valid Idempotency-Key is required for tenant operation mutations")
  client.managementToken tenantId

def Client.requestManagementBinary (client : Client) (tenantId : Uuid) (baseUrl : String)
    (upload : Upload) : Exchange Answer := do
  let token ← require (client.checkUpload tenantId upload)
  client.requestAuthorized baseUrl upload.asked token

/-! ### The process and the services behind it -/

structure Connection where
  /-- Sent by the service and not yet read. -/
  arriving : Bytes
  closed : Bool

structure World where
  clock : Instant
  pool : String → List (Instant × Nat)
  connections : Nat → Connection
  opened : Nat

/-- What a service sends on a request: responses on the way, and the one that ends the exchange. -/
structure Reply where
  interims : List Bytes
  final : Option Bytes
  closes : Bool

def Reply.bytes (reply : Reply) : Bytes := reply.interims.flatten ++ reply.final.getD []

inductive ConnectAnswer where
  | opened
  | unreachable
  | timeout
  | publicAddress

structure Choice where
  connecting : ConnectAnswer
  written : Bool
  reply : Reply
  portion : Nat
  reset : Bool

def stale (clock : Instant) (entry : Instant × Nat) : Bool := poolIdleTimeout < clock - entry.1

def execTake (world : World) (address : String) : Option Nat × World :=
  let bucket := (world.pool address).dropWhile (stale world.clock)
  (bucket.getLast?.map (·.2), { world with pool := Function.update world.pool address bucket.dropLast })

def execConnect (world : World) : ConnectAnswer → Except ApiError Nat × World
  | .opened => (.ok world.opened, { world with
        connections := Function.update world.connections world.opened ⟨[], false⟩
        opened := world.opened + 1 })
  | .unreachable => (.error .unreachable, world)
  | .timeout => (.error .timeout, world)
  | .publicAddress =>
    (.error (.invalidInput "upstream target resolved to non-private address"), world)

/-- A service that has closed the connection answers nothing. -/
def execWrite (world : World) (conn : Nat) (reply : Reply) : Option World :=
  let connection := world.connections conn
  if connection.closed ∧ reply.bytes ≠ [] then none
  else
    let answered : Connection :=
      ⟨connection.arriving ++ reply.bytes, connection.closed || reply.closes⟩
    some { world with connections := Function.update world.connections conn answered }

/-- A read waits until there is something to read or the service has closed. -/
def execRead (world : World) (conn portion : Nat) : Option (Option Bytes × World) :=
  let connection := world.connections conn
  if connection.arriving = [] then if connection.closed then some (some [], world) else none
  else if 1 ≤ portion ∧ portion ≤ readSize then
    let left : Connection := { connection with arriving := connection.arriving.drop portion }
    some (some (connection.arriving.take portion),
      { world with connections := Function.update world.connections conn left })
  else none

def execReturn (world : World) (address : String) (conn : Nat) : World :=
  if (world.pool address).length < poolMaxPerTarget then
    let bucket := world.pool address ++ [(world.clock, conn)]
    { world with pool := Function.update world.pool address bucket }
  else world

def exec (world : World) (choice : Choice) : (o : Op) → Option (o.Result × World)
  | .takePooled address => some (execTake world address)
  | .connect _ => some (execConnect world choice.connecting)
  | .write conn _ =>
    if choice.written then (execWrite world conn choice.reply).map fun world => (true, world)
    else some (false, world)
  | .read conn => if choice.reset then some (none, world) else execRead world conn choice.portion
  | .returnPooled address conn => some ((), execReturn world address conn)
  | .sweepPool =>
    some ((), { world with
      pool := fun address => (world.pool address).filter fun entry => !stale world.clock entry })

inductive Env where
  | tick (elapsed : Nat)
  | close (conn : Nat)

def World.pass (world : World) : Env → World
  | .tick elapsed => { world with clock := world.clock + elapsed }
  | .close conn =>
    let closed : Connection := { world.connections conn with closed := true }
    { world with connections := Function.update world.connections conn closed }

inductive Call where
  | request (tenantId : Uuid) (baseUrl : String) (asked : Asked)
  | requestManagement (tenantId : Uuid) (baseUrl : String) (asked : Asked)
  | requestManagementBinary (tenantId : Uuid) (baseUrl : String) (upload : Upload)
  | sweepPool

def Client.serve (client : Client) : Call → Exchange (Option Answer)
  | .request tenantId baseUrl asked => do
    let answer ← client.request tenantId baseUrl asked
    pure (some answer)
  | .requestManagement tenantId baseUrl asked => do
    let answer ← client.requestManagement tenantId baseUrl asked
    pure (some answer)
  | .requestManagementBinary tenantId baseUrl upload => do
    let answer ← client.requestManagementBinary tenantId baseUrl upload
    pure (some answer)
  | .sweepPool => do
    ask Op.sweepPool
    pure none

def Client.machine (client : Client) :
    Machine Op Op.Result World Choice Env Call (Except ApiError (Option Answer)) where
  exec := exec
  env := World.pass
  process call := (client.serve call).run

end ControlPlane.Upstream
