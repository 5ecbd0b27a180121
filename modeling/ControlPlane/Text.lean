import Mathlib

/-!
# String functions of the API server

The operations of Rust's `str` that request validation uses, on characters. Lengths are in bytes
where the server takes `len()`.
-/

namespace ControlPlane.Text

/-- The Unicode `White_Space` property. -/
def isWhitespace (c : Char) : Bool :=
  let n := c.toNat
  (9 ≤ n ∧ n ≤ 13) ∨ n = 0x20 ∨ n = 0x85 ∨ n = 0xA0 ∨ n = 0x1680 ∨ (0x2000 ≤ n ∧ n ≤ 0x200A) ∨
    n = 0x2028 ∨ n = 0x2029 ∨ n = 0x202F ∨ n = 0x205F ∨ n = 0x3000

def isControl (c : Char) : Bool := c.toNat < 0x20 ∨ (0x7F ≤ c.toNat ∧ c.toNat ≤ 0x9F)

def isAsciiLowercase (c : Char) : Bool := 'a' ≤ c ∧ c ≤ 'z'

def isAsciiUppercase (c : Char) : Bool := 'A' ≤ c ∧ c ≤ 'Z'

def isAsciiDigit (c : Char) : Bool := '0' ≤ c ∧ c ≤ '9'

def isAsciiAlphanumeric (c : Char) : Bool :=
  isAsciiLowercase c || isAsciiUppercase c || isAsciiDigit c

def isAsciiHexdigit (c : Char) : Bool :=
  isAsciiDigit c || ('a' ≤ c ∧ c ≤ 'f') || ('A' ≤ c ∧ c ≤ 'F')

def trim (s : String) : String :=
  String.ofList ((s.toList.dropWhile isWhitespace).reverse.dropWhile isWhitespace).reverse

def toAsciiLowercase (s : String) : String := String.ofList (s.toList.map Char.toLower)

def toAsciiUppercase (s : String) : String := String.ofList (s.toList.map Char.toUpper)

def replace (old new : Char) (s : String) : String :=
  String.ofList (s.toList.map fun c => if c = old then new else c)

/-- The characters that end within the first `n` bytes. -/
def takeBytes : Nat → List Char → List Char
  | _, [] => []
  | n, c :: cs => if c.utf8Size ≤ n then c :: takeBytes (n - c.utf8Size) cs else []

/-- `&s[..n]`, where byte `n` is the start of a character or the end. -/
def sliceTo (s : String) (n : Nat) : String := String.ofList (takeBytes n s.toList)

def all (p : Char → Bool) (s : String) : Bool := s.toList.all p

/-- `trim_end_matches` of one character. -/
def trimEndMatches (c : Char) (s : String) : String :=
  String.ofList (s.toList.reverse.dropWhile (· = c)).reverse

/-- `contains` of a text. -/
def contains (needle s : String) : Bool := s.toList.tails.any (needle.toList.isPrefixOf ·)

/-- `split_once` at a character. -/
def splitOnce (c : Char) (s : String) : Option (String × String) :=
  match s.toList.dropWhile (· ≠ c) with
  | [] => none
  | _ :: rest => some (String.ofList (s.toList.takeWhile (· ≠ c)), String.ofList rest)

/-- What stands before and after the first occurrence of the needle. -/
def cut (needle : List Char) : List Char → Option (List Char × List Char)
  | [] => if needle.isPrefixOf [] then some ([], []) else none
  | c :: cs =>
    if needle.isPrefixOf (c :: cs) then some ([], (c :: cs).drop needle.length)
    else (cut needle cs).map fun (before, after) => (c :: before, after)

/-- `split_once` at a text. -/
def splitOnceAt (needle s : String) : Option (String × String) :=
  (cut needle.toList s.toList).map fun (before, after) => (String.ofList before, String.ofList after)

def stripEnd (finish s : String) : Option String :=
  if finish.toList.isSuffixOf s.toList then
    some (String.ofList (s.toList.take (s.toList.length - finish.toList.length)))
  else none

def strip (start s : String) : Option String :=
  if start.toList.isPrefixOf s.toList then some (String.ofList (s.toList.drop start.toList.length))
  else none

/-- The last `width` hexadecimal digits are always there; identifiers never run out. -/
def hex (width n : Nat) : String :=
  let digits := Nat.toDigits 16 n
  String.ofList (List.replicate (width - digits.length) '0' ++ digits)

def hexValue (c : Char) : Option Nat :=
  if isAsciiDigit c then some (c.toNat - '0'.toNat)
  else if 'a' ≤ c ∧ c ≤ 'f' then some (c.toNat - 'a'.toNat + 10)
  else if 'A' ≤ c ∧ c ≤ 'F' then some (c.toNat - 'A'.toNat + 10)
  else none

def percentDecodeBytes : List Char → List UInt8
  | [] => []
  | c :: high :: low :: rest =>
    match c, hexValue high, hexValue low with
    | '%', some high, some low => UInt8.ofNat (16 * high + low) :: percentDecodeBytes rest
    | _, _, _ => String.utf8EncodeChar c ++ percentDecodeBytes (high :: low :: rest)
  | c :: rest => String.utf8EncodeChar c ++ percentDecodeBytes rest

/-- `std::str::from_utf8`. -/
def fromUtf8 (bytes : List UInt8) : Option String :=
  bytes.toByteArray.utf8Decode?.map fun cs => String.ofList cs.toList

def percentDecode (s : String) : Option String := fromUtf8 (percentDecodeBytes s.toList)

end ControlPlane.Text
