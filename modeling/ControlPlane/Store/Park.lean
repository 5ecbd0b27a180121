import ControlPlane.Store.Tenants

/-!
# Park snapshots

The autopilot envelope a tenant had when it was parked, kept until it is restored.
-/

namespace ControlPlane.Store

open ReadCommitted.Handler

/-- An unconsumed snapshot survives a park that found the envelope already parked. -/
def keepsSnapshot (upstreamAlreadyParked : Bool) (row : ParkSnapshotRow) : Bool :=
  row.unparkedAt.isNone && upstreamAlreadyParked

/-- `ON CONFLICT DO UPDATE ... WHERE`: a conflicting row the condition spares stays as it is. -/
def saveParkSnapshot (snapshot : ParkSnapshotRow) (upstreamAlreadyParked : Bool) : Handler Unit :=
  inTransaction do
    let now ← sqlNow
    let _ ← upsert (Key.parkSnapshot snapshot.tenantId) { snapshot with parkedAt := now }
      fun row =>
        if keepsSnapshot upstreamAlreadyParked row then row else { snapshot with parkedAt := now }

def unconsumed (row : ParkSnapshotRow) : Bool := row.unparkedAt.isNone

def parkSnapshotRow (db : AList Row) (tenantId : Uuid) : Option ParkSnapshotRow :=
  db.lookup (.parkSnapshot tenantId)

def loadParkSnapshot (tenantId : Uuid) : Handler (Option ParkSnapshotRow) := do
  let seen ← snapshot
  pure ((parkSnapshotRow seen tenantId).filter unconsumed)

def consumeParkSnapshot (tenantId : Uuid) (actor : String) : Handler Unit :=
  inTransaction do
    let now ← sqlNow
    let _ ← updateRow (Key.parkSnapshot tenantId) unconsumed
      fun _ row => { row with unparkedAt := some now, unparkedBy := some actor }

end ControlPlane.Store
