import ControlPlane.ChatStream

/-!
# Fan lists as CSV

`frontend/src/lib/fan-csv.ts`: the fans a console has loaded as a document, and how a document is
split into rows and cells again and read into the entries of an import.
-/

namespace ControlPlane.FanCsv

variable {Number : Type}

structure FanCard (Number : Type) where
  id : String
  email : String
  displayName : Option String
  locale : Option String
  status : String
  activationState : String
  consented : Bool
  qualifiedReferrals : Number
  eventInterests : Number
  attendedEvents : Number
  paidTicketOrders : Number
  createdAt : String
  lastActivityAt : Option String

def exportColumns : List String :=
  ["external_id", "email", "display_name", "locale", "status", "activation_state", "consented",
    "qualified_referrals", "event_interests", "attended_events", "paid_ticket_orders", "created_at",
    "last_activity_at"]

/-- The values of the columns as `String` makes texts of them, `render` for the numbers. -/
def values (render : Number → String) (fan : FanCard Number) : List (Option String) :=
  [some fan.id, some fan.email, fan.displayName, fan.locale, some fan.status,
    some fan.activationState, some (toString fan.consented), some (render fan.qualifiedReferrals),
    some (render fan.eventInterests), some (render fan.attendedEvents),
    some (render fan.paidTicketOrders), some fan.createdAt, fan.lastActivityAt]

def startsFormula (text : List Char) : Bool :=
  text.head?.any fun c => ['=', '+', '-', '@', '\t', '\r'].contains c

def guarded (text : List Char) : List Char :=
  if startsFormula text then "'".toList ++ text else text

def isSpecial (c : Char) : Bool := ['\x22', ',', '\n', '\r'].contains c

def doubled (text : List Char) : List Char :=
  text.flatMap fun c => if c = '\x22' then ['\x22', '\x22'] else [c]

def cell : Option String → List Char
  | none => []
  | some value =>
    if (guarded value.toList).any isSpecial then '\x22' :: doubled (guarded value.toList) ++ ['\x22']
    else guarded value.toList

def line (row : List (Option String)) : List Char := [','].intercalate (row.map cell)

def fansToCsv (render : Number → String) (fans : List (FanCard Number)) : List Char :=
  ['\r', '\n'].intercalate ([','].intercalate (exportColumns.map String.toList) ::
    fans.map fun fan => line (values render fan))

/-- The loop of `splitRow`, from whether it is inside quotes and the field so far. -/
def splitCells : Bool → List Char → List Char → List (List Char)
  | _, field, [] => [field]
  | true, field, '\x22' :: '\x22' :: rest => splitCells true (field ++ ['\x22']) rest
  | true, field, '\x22' :: rest => splitCells false field rest
  | true, field, c :: rest => splitCells true (field ++ [c]) rest
  | false, field, '\x22' :: rest => splitCells true field rest
  | false, field, ',' :: rest => field :: splitCells false [] rest
  | false, field, c :: rest => splitCells false (field ++ [c]) rest

def splitRow (line : List Char) : List (List Char) := splitCells false [] line

def pushed (row : List Char) : List (List Char) :=
  if (ChatStream.trim row).length > 0 then [row] else []

def splitLines : Bool → List Char → List Char → List (List Char)
  | _, current, [] => pushed current
  | true, current, '\x22' :: '\x22' :: rest => splitLines true (current ++ ['\x22', '\x22']) rest
  | true, current, '\x22' :: rest => splitLines false (current ++ ['\x22']) rest
  | true, current, c :: rest => splitLines true (current ++ [c]) rest
  | false, current, '\x22' :: rest => splitLines true (current ++ ['\x22']) rest
  | false, current, '\r' :: '\n' :: rest => pushed current ++ splitLines false [] rest
  | false, current, '\r' :: rest => pushed current ++ splitLines false [] rest
  | false, current, '\n' :: rest => pushed current ++ splitLines false [] rest
  | false, current, c :: rest => splitLines false (current ++ [c]) rest

section Plain

variable {field text rest : List Char} (hplain : ∀ c ∈ text, isSpecial c = false)
include hplain

theorem splitCells_plain :
    splitCells false field (text ++ rest) = splitCells false (field ++ text) rest := by
  induction text generalizing field with
  | nil => simp
  | cons c text ih =>
    have hc := hplain c List.mem_cons_self
    simp only [isSpecial, List.contains_cons, Bool.or_eq_false_iff, beq_eq_false_iff_ne] at hc
    rw [List.cons_append, splitCells, ih fun d hd => hplain d (List.mem_cons_of_mem c hd)]
    all_goals simp [hc]

theorem splitLines_plain :
    splitLines false field (text ++ rest) = splitLines false (field ++ text) rest := by
  induction text generalizing field with
  | nil => simp
  | cons c text ih =>
    have hc := hplain c List.mem_cons_self
    simp only [isSpecial, List.contains_cons, Bool.or_eq_false_iff, beq_eq_false_iff_ne] at hc
    rw [List.cons_append, splitLines, ih fun d hd => hplain d (List.mem_cons_of_mem c hd)]
    all_goals simp [hc]

end Plain

def splitRows (text : List Char) : List (List Char) := splitLines false [] text

inductive Field
  | externalId
  | email
  | displayName
  | locale
deriving DecidableEq

def headerAliases : List (String × Field) :=
  [("external_id", .externalId), ("externalid", .externalId), ("id", .externalId),
    ("email", .email), ("e-mail", .email), ("email_address", .email),
    ("display_name", .displayName), ("displayname", .displayName), ("name", .displayName),
    ("full_name", .displayName), ("locale", .locale), ("language", .locale)]

/-- What `HEADER_ALIASES` has under a name: as an object, it has inherited something under two. -/
inductive Mapped
  | field (field : Field)
  | inherited
deriving DecidableEq

def mapped (header : List Char) : Option Mapped :=
  if header = "constructor".toList ∨ header = "__proto__".toList then some .inherited
  else (headerAliases.find? fun known => known.1.toList = header).map fun known => .field known.2

/-- `toLowerCase`, of which we know what it does to the letters of ASCII. -/
structure LowerCase where
  lower : List Char → List Char
  lower_ascii : ∀ text : List Char, (∀ c ∈ text, c.toNat < 128) → lower text = text.map Char.toLower

structure FanImportEntry where
  externalId : List Char
  email : Option (List Char)
  displayName : Option (List Char)
  locale : Option (List Char)
deriving DecidableEq

structure Skipped where
  row : Nat
  reason : List Char
deriving DecidableEq

structure FanCsvParse where
  entries : List FanImportEntry
  skipped : List Skipped
  ignoredColumns : List (List Char)
deriving DecidableEq

/-- The cell of the first column that is read into the field. -/
def cellAt (headers cells : List (List Char)) (field : Field) : List Char :=
  match headers.findIdx? fun header => mapped header = some (.field field) with
  | some position => cells.getD position []
  | none => []

def nonempty (text : List Char) : Option (List Char) := if text = [] then none else some text

def identity (headers cells : List (List Char)) : List Char :=
  (nonempty (cellAt headers cells .externalId)).getD (cellAt headers cells .email)

/-- The loop of `parseFanCsv`, from the number of the row and the identities seen. -/
def importRows (headers : List (List Char)) :
    Nat → List (List Char) → List (List Char) → List FanImportEntry × List Skipped
  | _, _, [] => ([], [])
  | row, seen, line :: lines =>
    let cells := (splitRow line).map ChatStream.trim
    let externalId := identity headers cells
    if externalId = [] then
      let rest := importRows headers (row + 1) seen lines
      (rest.1, ⟨row, "no external_id and no email".toList⟩ :: rest.2)
    else if externalId ∈ seen then
      let rest := importRows headers (row + 1) seen lines
      (rest.1, ⟨row, "duplicate of an earlier row (".toList ++ externalId ++ [')']⟩ :: rest.2)
    else
      let rest := importRows headers (row + 1) (externalId :: seen) lines
      (⟨externalId, nonempty (cellAt headers cells .email),
        nonempty (cellAt headers cells .displayName), nonempty (cellAt headers cells .locale)⟩ ::
          rest.1, rest.2)

def withoutBom (text : List Char) : List Char :=
  if text.head? = some '\uFEFF' then text.tail else text

def parseFanCsv (case : LowerCase) (text : List Char) : FanCsvParse :=
  match splitRows (withoutBom text) with
  | [] => ⟨[], [], []⟩
  | header :: lines =>
    let headers := (splitRow header).map fun h => case.lower (ChatStream.trim h)
    let imported := importRows headers 2 [] lines
    ⟨imported.1, imported.2, headers.filter fun h => (mapped h).isNone && !h.isEmpty⟩

end ControlPlane.FanCsv
