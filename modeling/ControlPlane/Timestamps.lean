import ControlPlane.Json

/-!
# Time tuples and start times

The positional `OffsetDateTime` a tenant's service emits, as the server and as the browser decode
it: a decoded tuple is the time in UTC that is printed. The next show and the freshness of a section
are decided from times too.
-/

namespace ControlPlane.Timestamps

inductive Outcome (α : Type) where
  | panic
  | nothing
  | value (a : α)
deriving DecidableEq

namespace Outcome

variable {α : Type}

instance : Monad Outcome where
  pure := value
  bind
    | panic, _ => panic
    | nothing, _ => nothing
    | value a, f => f a

def ofOption : Option α → Outcome α
  | none => nothing
  | some a => value a

end Outcome

/-! ### chrono -/

def daysInYear (year : Int) : Int :=
  if year % 4 = 0 ∧ (year % 100 ≠ 0 ∨ year % 400 = 0) then 366 else 365

/-- `num_days_from_ce` of the last day before a year. -/
def daysBefore (year : Int) : Int :=
  365 * (year - 1) + (year - 1) / 4 - (year - 1) / 100 + (year - 1) / 400

/-- The day as `num_days_from_ce` counts it. Numbers outside `i32` or `u32` are out of range too. -/
def fromYoOpt (year ordinal : Int) : Option Int :=
  if -262143 ≤ year ∧ year ≤ 262142 ∧ 1 ≤ ordinal ∧ ordinal ≤ daysInYear year then
    some (daysBefore year + ordinal)
  else none

/-- The second of the day and its nanoseconds; a leap second has a billion of them and more. -/
def fromHmsNanoOpt (hour minute second nano : Int) : Option (Int × Int) :=
  if (0 ≤ hour ∧ hour < 24) ∧ (0 ≤ minute ∧ minute < 60) ∧ (0 ≤ second ∧ second < 60) ∧ 0 ≤ nano ∧
      (nano < 1000000000 ∨ second = 59 ∧ nano < 2000000000) then
    some (3600 * hour + 60 * minute + second, nano)
  else none

structure NaiveDateTime where
  day : Int
  second : Int
  nano : Int
deriving DecidableEq

namespace NaiveDateTime

/-- In nanoseconds since the day before the common era. -/
def instant (t : NaiveDateTime) : Int := (86400 * t.day + t.second) * 1000000000 + t.nano

/-- A leap second is left towards where the time moves. -/
def settled (t : NaiveDateTime) (seconds : Int) : Int × Int :=
  if t.nano < 1000000000 ∨ seconds = 0 then (t.second, t.nano)
  else (if 0 < seconds then t.second else t.second + 1, t.nano - 1000000000)

def plus (t : NaiveDateTime) (seconds : Int) : NaiveDateTime where
  day := t.day + ((t.settled seconds).1 + seconds) / 86400
  second := ((t.settled seconds).1 + seconds) % 86400
  nano := (t.settled seconds).2

/-- The day is one chrono has. -/
def InRange (t : NaiveDateTime) : Prop := daysBefore (-262143) < t.day ∧ t.day ≤ daysBefore 262143

instance (t : NaiveDateTime) : Decidable t.InRange := inferInstanceAs (Decidable (_ ∧ _))

/-- A duration that is too long for chrono leaves the range as well. -/
def minus (t : NaiveDateTime) (seconds : Int) : Outcome NaiveDateTime :=
  if (t.plus (-seconds)).InRange then .value (t.plus (-seconds)) else .panic

end NaiveDateTime

/-! ### The server -/

def inI64 (n : Int) : Bool := -9223372036854775808 ≤ n ∧ n ≤ 9223372036854775807

/-- Arithmetic of a debug build. -/
def checked (n : Int) : Outcome Int := if inI64 n then .value n else .panic

/-- An element of the array, as `as_i64` reads them. -/
def int (arr : List (Option Int)) (i : Nat) : Outcome Int := .ofOption (arr[i]?.join)

def localTime (arr : List (Option Int)) : Outcome NaiveDateTime := do
  let date ← .ofOption (fromYoOpt (← int arr 0) (← int arr 1))
  let time ← .ofOption (fromHmsNanoOpt (← int arr 2) (← int arr 3) (← int arr 4) (← int arr 5))
  pure ⟨date, time.1, time.2⟩

def offsetSeconds (arr : List (Option Int)) : Outcome Int :=
  if 9 ≤ arr.length then do
    let hours ← checked ((← int arr 6) * 3600)
    let minutes ← checked ((← int arr 7) * 60)
    let sum ← checked (hours + minutes)
    checked (sum + (← int arr 8))
  else if arr.length = 7 then int arr 6 else .nothing

def timeTupleToIso (arr : List (Option Int)) : Outcome NaiveDateTime := do
  let time ← localTime arr
  let offset ← offsetSeconds arr
  time.minus offset

def asI64 : Json → Option Int
  | .num n => if inI64 n then some n else none
  | _ => none

/-! ### The browser -/

/-- A number of a document: written as an integer, or with a fraction or an exponent and then the
double it stands for. -/
inductive Number where
  | int (n : Int)
  | real (q : Rat)

/-- `as_i64` takes what is written as an integer. -/
def Number.asI64 : Number → Option Int
  | .int n => if inI64 n then some n else none
  | .real _ => none

/-- The number if `Number.isInteger` holds. An integer literal may be too large for a double. -/
def Number.toInteger : Number → Option Int
  | .int n => if n.natAbs < 2 ^ 1024 - 2 ^ 970 then some n else none
  | .real q => if q.den = 1 then some q.num else none

def isOffsetDateTimeTuple : List Int → Bool
  | [year, ordinal, hour, minute, second, nano, offH, offM, offS] =>
    (2000 ≤ year ∧ year ≤ 2100) ∧ (1 ≤ ordinal ∧ ordinal ≤ 366) ∧ (0 ≤ hour ∧ hour ≤ 23) ∧
    (0 ≤ minute ∧ minute ≤ 59) ∧ (0 ≤ second ∧ second ≤ 60) ∧ 0 ≤ nano ∧
    (-14 ≤ offH ∧ offH ≤ 14) ∧ (-59 ≤ offM ∧ offM ≤ 59) ∧ (-59 ≤ offS ∧ offS ≤ 59) ∧
    ((0 ≤ offH ∧ 0 ≤ offM ∧ 0 ≤ offS) ∨ (offH ≤ 0 ∧ offM ≤ 0 ∧ offS ≤ 0))
  | _ => false

/-- `Date.UTC` of the days of January of a year, in milliseconds since 1970. -/
def dateUtc (year ordinal hour minute second : Int) : Int :=
  let dayFromYear := 365 * (year - 1970) + (year - 1969) / 4 - (year - 1901) / 100 + (year - 1601) / 400
  (dayFromYear + ordinal - 1) * 86400000 + hour * 3600000 + minute * 60000 + second * 1000

def timeArrayToDate (v : List Int) : Int :=
  let at' (i : Nat) (fallback : Int) := v[i]?.getD fallback
  dateUtc (at' 0 0) (at' 1 1) (at' 2 0) (at' 3 0) (at' 4 0) -
    (at' 6 0 * 3600 + at' 7 0 * 60 + at' 8 0) * 1000

/-! ### RFC 3339 -/

/-- The start texts and slugs of the events that are flagged upcoming and have both. -/
def datedShows (events : List Json) : List (String × String) :=
  (events.filter fun event => (event.get "upcoming").bind Json.asBool = some true).filterMap
    fun event => do
      let slug ← (← event.get "slug").asStr
      let startsAt ← (← event.get "starts_at").asStr
      pure (startsAt, slug)

/-- `argmin` is the first minimal element, as `min_by` is. -/
def nextUpcomingShowSlug (shows : Option Json) : Option String := do
  let .arr events ← (← shows).get "events" | none
  ((datedShows events).argmin Prod.fst).map Prod.snd

/-! ### The oldest timestamp -/

instance : LinearOrder NaiveDateTime :=
  LinearOrder.lift' (fun t => toLex (t.day, toLex (t.second, t.nano))) fun s t h => by
    cases s
    cases t
    simpa using h

/-- How chrono reads and prints a time in UTC. -/
structure Chrono where
  parseFromRfc3339 : String → Option NaiveDateTime
  toRfc3339 : NaiveDateTime → String

def timestampFieldNames : List String :=
  ["checkedAt", "checked_at", "lastHeartbeatAt", "last_heartbeat_at", "observedAt", "observed_at",
    "last_observed_at", "generatedAt", "generated_at", "lastSeen", "last_seen", "last_seen_at",
    "updatedAt", "updated_at", "fetchedAt", "fetched_at", "evaluated_at", "last_evaluated_at",
    "last_synced_at", "synced_at", "last_written_at", "collected_at", "computed_at", "refreshed_at"]

variable (chrono : Chrono)

def parseTimestampField : Json → Outcome NaiveDateTime
  | .str s => .ofOption (chrono.parseFromRfc3339 s)
  | .arr arr => do
    let iso ← timeTupleToIso (arr.map asI64)
    .ofOption (chrono.parseFromRfc3339 (chrono.toRfc3339 iso))
  | _ => .nothing

def children : Json → List Json
  | .obj object => object.map Prod.snd
  | .arr arr => arr
  | _ => []

/-- What becomes of each field that is tried, where the scan may go so many levels deeper. -/
def collectTimestamps (levels : Nat) (value : Json) : List (Outcome NaiveDateTime) :=
  timestampFieldNames.filterMap (fun field => (value.get field).map (parseTimestampField chrono)) ++
    match levels with
    | 0 => []
    | levels + 1 => (children value).flatMap (collectTimestamps levels)

def oldestUpstreamTimestamp (value : Json) : Outcome NaiveDateTime :=
  let candidates := collectTimestamps chrono 3 value
  if .panic ∈ candidates then .panic
  else .ofOption (candidates.filterMap fun | .value ts => some ts | _ => none).min?

def freshnessForSection (value : Json) (now : NaiveDateTime) (staleAfterSeconds : Int) :
    Outcome Json :=
  match oldestUpstreamTimestamp chrono value with
  | .panic => .panic
  | .nothing => pure (.obj [("observedAt", .null), ("classification", .str "unknown")])
  | .value ts => do
    let limit ← now.minus (max staleAfterSeconds 1)
    pure (.obj [("observedAt", .str (chrono.toRfc3339 ts)),
      ("classification", .str (if ts < limit then "stale" else "live"))])

end ControlPlane.Timestamps
