import ControlPlane.Store.Tenants

/-!
# Delivering notifications

A dispatcher claims due rows under a lease, delivers them and records each outcome in a statement of
its own. What a delivery comes to is an input.
-/

namespace ControlPlane.Store

open ReadCommitted.Handler

structure PendingNotification where
  id : Uuid
  event : NotifierEvent
  payload : Json

def isDue (now : Instant) (row : OutboxRow) : Bool :=
  row.status = .pending && row.nextAttemptAt ≤ now

def outboxWhere (p : OutboxRow → Bool) : (key : Key) → Row key → Bool
  | .outbox _, row => p row
  | .tenant _, _ | .job _, _ | .runtime _, _ | .billing _, _ | .guarantee _, _
  | .parkSnapshot _, _ | .outreachAlert _, _ | .channel _, _ | .slug _, _ | .account _, _
  | .audit _, _ | .advisory _, _ => false

def setOutbox (f : OutboxRow → OutboxRow) : (key : Key) → Row key → Row key
  | .outbox _, row => f row
  | .tenant _, row => row
  | .job _, row => row
  | .runtime _, row => row
  | .billing _, row => row
  | .guarantee _, row => row
  | .parkSnapshot _, row => row
  | .outreachAlert _, row => row
  | .channel _, row => row
  | .slug _, row => row
  | .account _, row => row
  | .audit _, row => row
  | .advisory _, row => row

def dueAt (db : AList Row) : Key → Instant
  | .outbox id => (db.lookup (.outbox id)).elim 0 fun row : OutboxRow => row.nextAttemptAt
  | _ => 0

/-- `ORDER BY next_attempt_at`; rows that are due at the same time come in any order. -/
def byDueTime (db : AList Row) (keys : List Key) : List Key :=
  keys.insertionSort fun a b => dueAt db a ≤ dueAt db b

/-- By its foreign key every row has a channel to be joined with. -/
def pendingNotification (db : AList Row) : Key → Option PendingNotification
  | .outbox id => (db.lookup (.outbox id)).map fun row : OutboxRow => ⟨id, row.event, row.payload⟩
  | _ => none

def notificationLease : Int := seconds 60

def leased (now : Instant) (row : OutboxRow) : OutboxRow :=
  { row with attempts := row.attempts + 1, nextAttemptAt := now + notificationLease }

def claimDueNotifications (limit : Nat) : Handler (List PendingNotification) :=
  inTransaction do
    let now ← sqlNow
    let seen ← snapshot
    let due ← shuffle (matching seen (outboxWhere (isDue now)))
    let ids ← takeUnlocked (outboxWhere (isDue now)) limit (byDueTime seen due)
    if ids.isEmpty then pure []
    else do
      let joined ← snapshot
      let order ← shuffle ids
      updateWhere (fun key _ => key ∈ ids) (setOutbox (leased now))
      pure (order.filterMap (pendingNotification joined))

def maxAttempts : Nat := 6

def backoff (attempts : Nat) : Int := seconds (min 1800 (30 * 2 ^ attempts))

def sent (row : OutboxRow) : OutboxRow := { row with status := .sent, lastError := none }

def undelivered (error : String) (now : Instant) (row : OutboxRow) : OutboxRow :=
  { row with
    status := if maxAttempts ≤ row.attempts then .dead else row.status
    nextAttemptAt := now + backoff row.attempts
    lastError := some error }

def markSent (id : Uuid) : Handler (Option OutboxRow) :=
  updateRow (Key.outbox id) (fun row : OutboxRow => row.status = .pending) fun _ row => sent row

/-- Unlike a success, a failure does not look at the status of the row. -/
def markUndelivered (id : Uuid) (error : String) (now : Instant) : Handler (Option OutboxRow) :=
  updateRow (Key.outbox id) (fun _ => true) fun _ row => undelivered error now row

def completeNotification (id : Uuid) (error : Option String) : Handler Unit :=
  inTransaction do
    let now ← sqlNow
    let _ ← error.elim (markSent id) (markUndelivered id · now)

end ControlPlane.Store
