import ControlPlane.Text

/-!
# Hosts and URLs

What the `url` crate hands to request validation. Its parsers are parameters.
-/

namespace ControlPlane

/-- Printable ASCII outside the code points the URL standard forbids in a domain. -/
def isDomainChar (c : Char) : Bool :=
  0x21 ≤ c.toNat && c.toNat ≤ 0x7E &&
    !(['#', '/', ':', '<', '>', '?', '@', '[', '\\', ']', '^', '|', '%'].contains c)

instance neZero_256 : NeZero 256 := ⟨by decide⟩

instance neZero_65536 : NeZero 65536 := ⟨by decide⟩

/-- `url::Host`. -/
inductive Host where
  | domain (name : String) (nonempty : name ≠ "") (chars : Text.all isDomainChar name = true)
  | ipv4 (a b c d : Fin 256)
  | ipv6 (address : String) (nonempty : address ≠ "")
      (chars : Text.all (fun c => Text.isAsciiHexdigit c || c == ':' || c == '.') address = true)

def Host.asStr : Host → String
  | .domain name _ _ => name
  | .ipv4 a b c d =>
    toString a.val ++ "." ++ toString b.val ++ "." ++ toString c.val ++ "." ++ toString d.val
  | .ipv6 address _ _ => "[" ++ address ++ "]"

/-- `url::Url`. -/
structure Url where
  scheme : String
  username : String
  password : Option String
  host : Option Host
  port : Option Nat
  path : String
  query : Option String
  fragment : Option String

namespace Url

def credentials (url : Url) : String :=
  if url.username = "" ∧ url.password = none then ""
  else url.username ++ (url.password.elim "" (":" ++ ·)) ++ "@"

def authority (url : Url) : String :=
  url.host.elim "" fun host =>
    "//" ++ url.credentials ++ host.asStr ++ url.port.elim "" (":" ++ toString ·)

def asStr (url : Url) : String :=
  url.scheme ++ ":" ++ url.authority ++ url.path ++ url.query.elim "" ("?" ++ ·) ++
    url.fragment.elim "" ("#" ++ ·)

end Url

/-- What the server takes from its libraries: the parsers of URLs and hosts, the contrast ratio of two
colours in floating point, and the password hash. -/
structure Crates where
  parseUrl : String → Option Url
  parseHost : String → Option Host
  contrast : String → String → Option Rat
  hashPassword : String → Option String

end ControlPlane
