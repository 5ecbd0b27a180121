import ControlPlane.Json
import ControlPlane.TextStream

/-!
# The chat stream

The control plane passes the agent service's events through and adds one of its own when the
upstream connection fails. The browser takes events in as they are completed.
-/

namespace ControlPlane.ChatStream

open TextStream

def asciiBytes (text : String) : List UInt8 := text.toList.map fun c => UInt8.ofNat c.toNat

def errorEvent : List UInt8 := asciiBytes "event: error\ndata: stream interrupted\n\n"

/-- What the response body yields for what the upstream body yields. -/
def chatStream : List (Except Unit (List UInt8)) → List (List UInt8)
  | [] => []
  | .ok chunk :: rest => chunk :: chatStream rest
  | .error () :: _ => [errorEvent]

/-- White space and line terminators, as `trim` removes them. -/
def isTrimmed (c : Char) : Bool :=
  let n := c.toNat
  (9 ≤ n ∧ n ≤ 13) ∨ n = 0x20 ∨ n = 0xA0 ∨ n = 0x1680 ∨ (0x2000 ≤ n ∧ n ≤ 0x200A) ∨ n = 0x2028 ∨
    n = 0x2029 ∨ n = 0x202F ∨ n = 0x205F ∨ n = 0x3000 ∨ n = 0xFEFF

def trim (text : List Char) : List Char :=
  ((text.dropWhile isTrimmed).reverse.dropWhile isTrimmed).reverse

def isJsonSpace (c : Char) : Bool := c = ' ' || c = '\t' || c = '\n' || c = '\r'

/-- `JSON.parse`, nothing where it throws. Of its grammar we use that an object ends in a brace. -/
structure JsonParser where
  parse : List Char → Option Json
  closed : ∀ text members, parse text = some (.obj members) →
    (text.reverse.dropWhile isJsonSpace).head? = some '}'

inductive StreamEvent where
  | token (text : String)
  | actions (items : List Json)
  | error (message : String)

/-- The event of a payload, if it has one of the three types. -/
def eventOfMembers (members : List (String × Json)) : Option StreamEvent :=
  match Json.lookup "type" members with
  | some (.str kind) =>
    if kind = "token" then
      match Json.lookup "text" members with
      | some (.str text) => some (.token text)
      | _ => none
    else if kind = "actions" then
      match Json.lookup "actions" members with
      | some (.arr items) => some (.actions items)
      | _ => none
    else if kind = "error" then
      match Json.lookup "error" members with
      | some (.str message) => some (.error message)
      | _ => some (.error "stream error")
    else none
  | _ => none

def dataMark : List Char := ['d', 'a', 't', 'a', ':', ' ']

variable (parser : JsonParser)

/-- A block that does not begin with its data, or whose data cannot be parsed, is passed over. -/
def eventOfBlock (block : List Char) : Option StreamEvent :=
  let line := trim block
  if dataMark.isPrefixOf line then
    match parser.parse (line.drop 6) with
    | some (.obj members) => eventOfMembers members
    | _ => none
  else none

structure Reply where
  text : String := ""
  actions : List Json := []

/-- The message of a `StreamError`, or the reply so far. -/
def handleBlock (reply : Reply) (block : List Char) : Except String Reply :=
  match eventOfBlock parser block with
  | some (.token text) => .ok { reply with text := reply.text ++ text }
  | some (.actions items) => .ok { reply with actions := items }
  | some (.error message) => .error message
  | none => .ok reply

structure Reader where
  decoder : Decoder := .new
  buffer : List Char := []
  reply : Reply := {}

def Reader.feed (reader : Reader) (value : List UInt8) : Except String Reader := do
  let decoded := reader.decoder.decode value
  let events := blocks (reader.buffer ++ decoded.2)
  let reply ← events.dropLast.foldlM (handleBlock parser) reader.reply
  pure { decoder := decoded.1, buffer := events.getLast?.getD [], reply }

def readChatStream (chunks : List (List UInt8)) : Except String Reply := do
  let reader ← chunks.foldlM (Reader.feed parser) {}
  pure reader.reply

/-- Reading a chunk, whatever is done with the events. -/
def Reader.feedWith {m : Type → Type} [Monad m] (handle : Reply → List Char → m Reply)
    (reader : Reader) (value : List UInt8) : m Reader := do
  let decoded := reader.decoder.decode value
  let events := blocks (reader.buffer ++ decoded.2)
  let reply ← events.dropLast.foldlM handle reader.reply
  pure { decoder := decoded.1, buffer := events.getLast?.getD [], reply }

end ControlPlane.ChatStream
