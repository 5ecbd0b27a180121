import ControlPlane.Upstream.Allowlist
import ControlPlane.Upstream.Framing

/-!
# The surface proxy

A request for a surface is passed on under the prefix of the operator routes, with a query string
that is checked and written anew.
-/

namespace ControlPlane.Upstream

/-- A name or a value; `lossy` is `String::from_utf8_lossy`. -/
def formDecode (lossy : Bytes → String) (cs : List Char) : String :=
  lossy (Text.percentDecodeBytes (Text.replace '+' ' ' (String.ofList cs)).toList)

/-- `form_urlencoded::parse`. -/
def formParse (lossy : Bytes → String) (query : String) : List (String × String) :=
  ((query.toList.splitOn '&').filter (· ≠ [])).map fun pair =>
    (formDecode lossy (pair.takeWhile (· ≠ '=')), formDecode lossy ((pair.dropWhile (· ≠ '=')).drop 1))

def upperDigit (n : Nat) : Char := (Nat.digitChar n).toUpper

/-- `byte_serialize` of one byte. -/
def serializeByte (byte : UInt8) : List Char :=
  let c := Char.ofNat byte.toNat
  if Text.isAsciiAlphanumeric c || ['*', '-', '.', '_'].contains c then [c]
  else if c = ' ' then ['+']
  else ['%', upperDigit (byte.toNat / 16), upperDigit (byte.toNat % 16)]

def byteSerialize (s : String) : List Char := (utf8 s).flatMap serializeByte

/-- `append_pair` for each of the pairs, and `finish`. -/
def formSerialize (pairs : List (String × String)) : String :=
  String.ofList (['&'].intercalate (pairs.map fun pair =>
    byteSerialize pair.1 ++ '=' :: byteSerialize pair.2))

def checkPair (surface : Surface) (pair : String × String) : Except ApiError Unit :=
  if !surface.query.contains pair.1 then
    .error (.invalidInput ("query parameter '" ++ pair.1 ++ "' is not accepted here"))
  else if 256 < pair.2.utf8ByteSize then
    .error (.invalidInput ("query parameter '" ++ pair.1 ++ "' is too long"))
  else .ok ()

def upstreamQuery (lossy : Bytes → String) (surface : Surface) (raw : Option String) :
    Except ApiError String :=
  match raw.filter (· ≠ "") with
  | none => .ok ""
  | some raw => do
    (formParse lossy raw).forM (checkPair surface)
    pure (formSerialize (formParse lossy raw))

/-- The path `proxy` asks the tenant's service for. -/
def upstreamPath (path query : String) : String :=
  if query = "" then upstreamPrefix ++ path else upstreamPrefix ++ path ++ "?" ++ query

end ControlPlane.Upstream
