import Mathlib

/-!
# Programs that talk to a relational database

A request handler is a tree of database operations at row granularity, with a branch for each
answer. A statement that touches several rows, or may have to wait, is the sequence of its row
operations, because that is where other transactions come in between.
-/

namespace ReadCommitted

/-- Microseconds, the precision of a stored timestamp. -/
abbrev Instant := Int

/-- A statement refused by a constraint of the schema. -/
inductive ConstraintError where
  | unique
  | check
deriving DecidableEq, Repr

variable {Key : Type} {Row : Key → Type} {Req Resp α β γ : Type}

inductive Op (Row : Key → Type) (Req : Type) : Type where
  | begin
  | commit
  | rollback
  | utcNow
  /-- The database's `now()`, which stands still within a transaction. -/
  | sqlNow
  | fresh
  | snapshot
  /-- The order in which an unordered statement visits the given rows. -/
  | shuffle (keys : List Key)
  /-- `SELECT ... FOR UPDATE` by key. -/
  | lock (key : Key)
  /-- `SELECT ... FOR UPDATE SKIP LOCKED` by key. -/
  | skipLocked (key : Key)
  /-- The new version of a row this transaction has locked. -/
  | write (key : Key) (row : Row key)
  /-- `INSERT ... ON CONFLICT DO NOTHING`; the row may be computed from the statement's snapshot. -/
  | insert (key : Key) (row : AList Row → Row key)
  /-- `INSERT ... ON CONFLICT DO UPDATE`. -/
  | upsert (key : Key) (row : Row key) (update : Row key → Row key)
  | request (req : Req)

@[reducible]
def Op.Result (Resp : Type) : Op Row Req → Type
  | .begin | .commit | .rollback => Unit
  | .utcNow | .sqlNow => Instant
  | .fresh => Nat
  | .snapshot => AList Row
  | .shuffle _ => List Key
  | .lock key | .skipLocked key => Option (Row key)
  | .write _ _ => Except ConstraintError Unit
  | .insert _ _ => Except ConstraintError Bool
  | .upsert key _ _ => Except ConstraintError (Row key)
  | .request _ => Resp

inductive Prog (Row : Key → Type) (Req Resp α : Type) : Type where
  | ret (value : α)
  | op (o : Op Row Req) (next : o.Result Resp → Prog Row Req Resp α)

namespace Prog

def bind : Prog Row Req Resp α → (α → Prog Row Req Resp β) → Prog Row Req Resp β
  | .ret value, f => f value
  | .op o next, f => .op o fun answer => (next answer).bind f

instance : Monad (Prog Row Req Resp) where
  pure := .ret
  bind := Prog.bind

def perform (o : Op Row Req) : Prog Row Req Resp (o.Result Resp) := .op o .ret

end Prog

/-- How a refused statement shows up among the errors of a handler. -/
class OfConstraint (ε : Type) where
  ofConstraint : ConstraintError → ε

abbrev Handler (Row : Key → Type) (Req Resp ε : Type) : Type → Type :=
  ExceptT ε (Prog Row Req Resp)

namespace Handler

variable {ε : Type}

def ask (o : Op Row Req) : Handler Row Req Resp ε (o.Result Resp) :=
  ExceptT.lift (Prog.perform o)

def utcNow : Handler Row Req Resp ε Instant := ask .utcNow

def sqlNow : Handler Row Req Resp ε Instant := ask .sqlNow

def fresh : Handler Row Req Resp ε Nat := ask .fresh

def snapshot : Handler Row Req Resp ε (AList Row) := ask .snapshot

def shuffle (keys : List Key) : Handler Row Req Resp ε (List Key) := ask (.shuffle keys)

def lock (key : Key) : Handler Row Req Resp ε (Option (Row key)) := ask (.lock key)

def skipLocked (key : Key) : Handler Row Req Resp ε (Option (Row key)) := ask (.skipLocked key)

def request (req : Req) : Handler Row Req Resp ε Resp := ask (.request req)

def ensure (condition : Prop) [Decidable condition] (e : ε) : Handler Row Req Resp ε Unit :=
  if condition then pure () else throw e

def okOr (value : Option α) (e : ε) : Handler Row Req Resp ε α :=
  match value with
  | some a => pure a
  | none => throw e

def require (value : Except ε α) : Handler Row Req Resp ε α := ExceptT.mk (pure value)

def mapErr (f : ε → ε) (body : Handler Row Req Resp ε α) : Handler Row Req Resp ε α :=
  ExceptT.mk do
    match ← body.run with
    | .ok a => pure (.ok a)
    | .error e => pure (.error (f e))

def whenever (condition : Prop) [Decidable condition] (body : Handler Row Req Resp ε Unit) :
    Handler Row Req Resp ε Unit :=
  if condition then body else pure ()

def forSome (value : Option α) (body : α → Handler Row Req Resp ε Unit) :
    Handler Row Req Resp ε Unit :=
  match value with
  | some a => body a
  | none => pure ()

def attempt (body : Handler Row Req Resp ε α) : Handler Row Req Resp ε (Except ε α) :=
  ExceptT.lift body.run

/-- A transaction that commits if its body succeeds. An error drops it, which rolls it back. -/
def inTransaction (body : Handler Row Req Resp ε α) : Handler Row Req Resp ε α :=
  ExceptT.mk do
    Prog.perform .begin
    match ← body.run with
    | .ok a => do
      Prog.perform .commit
      pure (.ok a)
    | .error e => do
      Prog.perform .rollback
      pure (.error e)

/-- The recheck a waiting statement makes: lock the row, look at the version that is now current,
and go on only if it still qualifies. -/
def lockIf (key : Key) (qualifies : Row key → Bool) :
    Handler Row Req Resp ε (Option (Row key)) := do
  let row ← lock key
  pure (row.filter qualifies)

def matching [DecidableEq Key] (seen : AList Row) (qualifies : (key : Key) → Row key → Bool) :
    List Key :=
  seen.keys.filter fun key => (seen.lookup key).any (qualifies key)

/-- `ORDER BY ... LIMIT 1 FOR UPDATE` over candidates already in order: the first row that still
qualifies once it is locked. -/
def firstLocked (qualifies : (key : Key) → Row key → Bool) :
    List Key → Handler Row Req Resp ε (Option (Σ key, Row key))
  | [] => pure none
  | key :: rest => do
    match ← lockIf key (qualifies key) with
    | some row => pure (some ⟨key, row⟩)
    | none => firstLocked qualifies rest

/-- The same with `SKIP LOCKED`: rows other transactions hold are passed over. -/
def firstUnlocked (qualifies : (key : Key) → Row key → Bool) :
    List Key → Handler Row Req Resp ε (Option (Σ key, Row key))
  | [] => pure none
  | key :: rest => do
    let row ← skipLocked key
    match row.filter (qualifies key) with
    | some row => pure (some ⟨key, row⟩)
    | none => firstUnlocked qualifies rest

/-- `ORDER BY ... LIMIT limit FOR UPDATE SKIP LOCKED` over candidates already in order. -/
def takeUnlocked (qualifies : (key : Key) → Row key → Bool) :
    Nat → List Key → Handler Row Req Resp ε (List Key)
  | _, [] => pure []
  | 0, _ :: _ => pure []
  | limit + 1, key :: rest => do
    let row ← skipLocked key
    match row.filter (qualifies key) with
    | some _ => do
      let others ← takeUnlocked qualifies limit rest
      pure (key :: others)
    | none => takeUnlocked qualifies (limit + 1) rest

section Statements

variable [OfConstraint ε]

def write (key : Key) (row : Row key) : Handler Row Req Resp ε Unit := do
  match ← ask (.write key row) with
  | .ok () => pure ()
  | .error e => throw (OfConstraint.ofConstraint e)

def insert (key : Key) (row : AList Row → Row key) : Handler Row Req Resp ε Bool := do
  match ← ask (.insert key row) with
  | .ok inserted => pure inserted
  | .error e => throw (OfConstraint.ofConstraint e)

/-- `INSERT ... ON CONFLICT DO UPDATE ... RETURNING`. -/
def upsert (key : Key) (row : Row key) (update : Row key → Row key) :
    Handler Row Req Resp ε (Row key) := do
  match ← ask (.upsert key row update) with
  | .ok row => pure row
  | .error e => throw (OfConstraint.ofConstraint e)

variable [DecidableEq Key]

/-- `UPDATE ... WHERE` on the row of a known key, `RETURNING` the new version. The row is found in
the statement's snapshot and judged again once it is locked. -/
def updateRow (key : Key) (qualifies : Row key → Bool) (set : AList Row → Row key → Row key) :
    Handler Row Req Resp ε (Option (Row key)) := do
  let seen ← snapshot
  match (seen.lookup key).filter qualifies with
  | none => pure none
  | some _ =>
    match ← lockIf key qualifies with
    | none => pure none
    | some row => do
      write key (set seen row)
      pure (some (set seen row))

def updateEach (qualifies : (key : Key) → Row key → Bool) (set : (key : Key) → Row key → Row key) :
    List Key → Handler Row Req Resp ε Unit
  | [] => pure ()
  | key :: rest => do
    match ← lockIf key (qualifies key) with
    | none => updateEach qualifies set rest
    | some row => do
      write key (set key row)
      updateEach qualifies set rest

/-- `UPDATE ... WHERE` over a whole table. -/
def updateWhere (qualifies : (key : Key) → Row key → Bool)
    (set : (key : Key) → Row key → Row key) : Handler Row Req Resp ε Unit := do
  let seen ← snapshot
  let keys ← shuffle (matching seen qualifies)
  updateEach qualifies set keys

end Statements

end Handler

end ReadCommitted
