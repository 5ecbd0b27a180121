import ControlPlane.Model

/-!
# Responses of a tenant's service

Where a response's header block ends, what it says about the body, and what value the caller gets.
-/

namespace ControlPlane.Upstream

abbrev Bytes := List UInt8

def utf8 (s : String) : Bytes := s.toList.flatMap String.utf8EncodeChar

def maxResponseBytes : Nat := 1024 * 1024

def usizeBound : Nat := 2 ^ 64

def headerTerminator : Bytes := [13, 10, 13, 10]

def findSubsequence (needle : Bytes) : Bytes → Option Nat
  | [] => none
  | b :: rest =>
    if needle.isPrefixOf (b :: rest) then some 0 else (findSubsequence needle rest).map (· + 1)

def findHeaderTerminator (buf : Bytes) : Option Nat := findSubsequence headerTerminator buf

def mismatch {α : Type} (reason : String) : Except ApiError α := .error (.contractMismatch reason)

/-! ### Numbers -/

def digitValue (radix : Nat) (c : Char) : Option Nat := (Text.hexValue c).filter (· < radix)

def digitsValue (radix : Nat) : List Char → Option Nat
  | [] => none
  | cs => cs.foldl (fun n c => n.bind fun n => (digitValue radix c).map (radix * n + ·)) (some 0)

/-- `from_str_radix` of an unsigned type: a plus sign may stand in front. -/
def parseUnsigned (radix bound : Nat) (s : String) : Option Nat :=
  let digits := match s.toList with
    | '+' :: rest => rest
    | cs => cs
  (digitsValue radix digits).filter (· < bound)

/-! ### Header blocks -/

/-- `split("\r\n")`. -/
def splitLines : List Char → List (List Char)
  | [] => [[]]
  | '\r' :: '\n' :: rest => [] :: splitLines rest
  | c :: rest => (splitLines rest).modifyHead (c :: ·)

def eqIgnoreAsciiCase (s other : String) : Bool :=
  Text.toAsciiLowercase s = Text.toAsciiLowercase other

def statusWord (line : Bytes) : Option Bytes := (line.splitOn 32)[1]?

/-- Whether the status line names a response that never has a body. -/
def statusHasNoBody (headers : Bytes) : Bool :=
  let line := headers.takeWhile (· ≠ 10)
  let code := ((statusWord line).bind Text.fromUtf8).bind fun code =>
    parseUnsigned 10 65536 (Text.trim code)
  code.any fun code => 100 ≤ code && code ≤ 199 || code = 204 || code = 304

structure Framing where
  contentLength : Option Nat
  transferChunked : Bool
  connectionClose : Bool
deriving DecidableEq, Repr

def headerLine (line : List Char) : Except ApiError (String × String) :=
  match Text.splitOnce ':' (String.ofList line) with
  | none => mismatch "malformed upstream header"
  | some (name, value) => .ok (Text.trim name, Text.trim value)

/-- The only encoding that is taken. -/
def onlyChunked (value : String) : Bool :=
  let encodings := ((value.toList.splitOn ',').map fun e => Text.trim (String.ofList e)).filter (· ≠ "")
  match encodings with
  | [encoding] => eqIgnoreAsciiCase encoding "chunked"
  | _ => false

def Framing.header (framing : Framing) (name value : String) : Except ApiError Framing :=
  if eqIgnoreAsciiCase name "content-length" then
    match parseUnsigned 10 usizeBound value with
    | none => mismatch "invalid upstream content length"
    | some parsed =>
      if framing.contentLength.isSome then mismatch "duplicate upstream content length"
      else .ok { framing with contentLength := some parsed }
  else if eqIgnoreAsciiCase name "transfer-encoding" then
    if onlyChunked value then .ok { framing with transferChunked := true }
    else mismatch "unsupported upstream transfer encoding"
  else if eqIgnoreAsciiCase name "connection" then
    .ok { framing with
      connectionClose := framing.connectionClose || eqIgnoreAsciiCase value "close" }
  else .ok framing

def framingOf : Framing → List (List Char) → Except ApiError Framing
  | framing, [] => .ok framing
  | framing, line :: rest => do
    let (name, value) ← headerLine line
    let framing ← framing.header name value
    framingOf framing rest

def unframed : Framing := ⟨none, false, false⟩

def parseResponseFraming (headerBytes : Bytes) : Except ApiError Framing :=
  match Text.fromUtf8 headerBytes with
  | none => mismatch "malformed upstream headers"
  | some head => do
    let framing ← framingOf unframed (splitLines head.toList).tail
    if framing.transferChunked && framing.contentLength.isSome then
      mismatch "ambiguous upstream response framing"
    else pure framing

/-! ### Chunked bodies -/

def chunkTerminator : Bytes := [48, 13, 10, 13, 10]

def chunkBoundary : Bytes := [13, 10, 48, 13, 10, 13, 10]

def findChunkTerminator (body : Bytes) : Bool :=
  chunkTerminator.isPrefixOf body || (findSubsequence chunkBoundary body).isSome

/-- The buffer ends with a terminator that stands where the body begins or after a line end. -/
def endsWithTerminator (bodyStart : Nat) (buf : Bytes) : Bool :=
  chunkTerminator.isSuffixOf buf &&
    (let pos := buf.length - chunkTerminator.length
     pos = bodyStart || (2 ≤ pos && (buf.drop (pos - 2)).take 2 = [13, 10]))

/-- The data of the next chunk and what follows it, or nothing at the last chunk. -/
def nextChunk (input : Bytes) (room : Nat) : Except ApiError (Option (Bytes × Bytes)) :=
  match findSubsequence [13, 10] input with
  | none => mismatch "malformed chunked upstream response"
  | some lineEnd =>
    match Text.fromUtf8 (input.take lineEnd) with
    | none => mismatch "malformed upstream chunk size"
    | some sizeLine =>
      let sizeHex := Text.trim (String.ofList (sizeLine.toList.takeWhile (· ≠ ';')))
      match parseUnsigned 16 usizeBound sizeHex with
      | none => mismatch "invalid upstream chunk size"
      | some size =>
        let rest := input.drop (lineEnd + 2)
        if size = 0 then .ok none
        else if room < size ∨ rest.length < size + 2 ∨ (rest.drop size).take 2 ≠ [13, 10] then
          mismatch "invalid upstream chunk framing"
        else .ok (some (rest.take size, rest.drop (size + 2)))

/-- Every chunk has its size line, so that there are fewer of them than bytes. -/
def decodeChunks : Nat → Bytes → Bytes → Except ApiError Bytes
  | 0, _, _ => mismatch "malformed chunked upstream response"
  | fuel + 1, input, output => do
    match ← nextChunk input (maxResponseBytes - output.length) with
    | none => pure output
    | some (data, rest) => decodeChunks fuel rest (output ++ data)

def decodeChunked (input : Bytes) : Except ApiError Bytes := decodeChunks (input.length + 1) input []

/-! ### Values -/

/-- What comes out of a decompressor before the end of its input or the first fault, and whether there
was none. -/
structure Inflated where
  output : Bytes
  sound : Bool

structure Decoders where
  json : Bytes → Option Json
  gunzip : Bytes → Inflated
  inflate : Bytes → Inflated

def decompress (format : String) (inflated : Inflated) : Except ApiError Bytes :=
  if maxResponseBytes < inflated.output.length then
    mismatch "decompressed upstream response exceeded limit"
  else if inflated.sound then .ok inflated.output
  else mismatch ("malformed " ++ format ++ " upstream response")

structure Coding where
  contentLength : Option Nat
  transferChunked : Bool
  contentEncoding : Option String

def Coding.header (coding : Coding) (name value : String) : Except ApiError Coding :=
  if eqIgnoreAsciiCase name "transfer-encoding" then
    if onlyChunked value then .ok { coding with transferChunked := true }
    else mismatch "unsupported upstream transfer encoding"
  else if eqIgnoreAsciiCase name "content-length" then
    match parseUnsigned 10 usizeBound value with
    | none => mismatch "invalid upstream content length"
    | some parsed =>
      if coding.contentLength.isSome then mismatch "duplicate upstream content length"
      else .ok { coding with contentLength := some parsed }
  else if eqIgnoreAsciiCase name "content-encoding" then
    if coding.contentEncoding.isSome then mismatch "duplicate upstream content encoding"
    else .ok { coding with contentEncoding := some value }
  else .ok coding

def codingOf : Coding → List (List Char) → Except ApiError Coding
  | coding, [] => .ok coding
  | coding, line :: rest => do
    let (name, value) ← headerLine line
    let coding ← coding.header name value
    codingOf coding rest

/-- `split_whitespace`. -/
def words (cs : List Char) : List (List Char) :=
  (cs.splitOnP Text.isWhitespace).filter (· ≠ [])

def wireBody (coding : Coding) (body : Bytes) : Except ApiError Bytes :=
  if coding.transferChunked then decodeChunked body
  else if coding.contentLength.any (· ≠ body.length) then mismatch "truncated upstream response"
  else .ok body

def decodedBody (decoders : Decoders) (coding : Coding) (body : Bytes) : Except ApiError Bytes :=
  match coding.contentEncoding with
  | none => .ok body
  | some "gzip" => decompress "gzip" (decoders.gunzip body)
  | some "deflate" => decompress "deflate" (decoders.inflate body)
  | some _ => mismatch "unsupported upstream content encoding"

def reasonOf (names : List String) (fallback : String) (value : Json) : String :=
  (names.findSome? fun name => (value.get name).bind Json.asStr).getD fallback

def resultOf (decoders : Decoders) (status : Nat) (body : Bytes) : Except ApiError Json :=
  if status = 204 then
    if body = [] then .ok .null else mismatch "upstream returned a body for HTTP 204"
  else if 200 ≤ status ∧ status < 300 ∧ body = [] then mismatch "upstream returned an empty success body"
  else do
    let value ← if body = [] then pure Json.null else
      (decoders.json body).elim (mismatch "invalid upstream JSON") .ok
    if 200 ≤ status ∧ status < 300 then .ok value
    else if status = 404 then .error .notFound
    else if status = 409 then
      .error (.conflict (reasonOf ["detail", "title"] "upstream rejected the change" value))
    else if status = 400 ∨ status = 422 then
      .error (.invalidInput (reasonOf ["detail", "title", "code"] "AREA_INVALID" value))
    else .error (.upstreamError status)

def parseResponse (decoders : Decoders) (raw : Bytes) : Except ApiError Json :=
  match findHeaderTerminator raw with
  | none => mismatch "malformed upstream response"
  | some split =>
    match Text.fromUtf8 (raw.take split) with
    | none => mismatch "malformed upstream headers"
    | some head => do
      let lines := splitLines head.toList
      let status ← (((lines.head?.bind fun line => (words line)[1]?).bind fun status =>
        parseUnsigned 10 65536 (String.ofList status)).elim
          (mismatch "missing upstream status") .ok)
      if 300 ≤ status ∧ status < 400 then mismatch "upstream redirect refused"
      let coding ← codingOf ⟨none, false, none⟩ lines.tail
      if coding.transferChunked && coding.contentLength.isSome then
        mismatch "ambiguous upstream response framing"
      let body ← wireBody coding (raw.drop (split + headerTerminator.length))
      let body ← decodedBody decoders coding body
      if maxResponseBytes < body.length then mismatch "upstream response exceeded limit"
      resultOf decoders status body

end ControlPlane.Upstream
