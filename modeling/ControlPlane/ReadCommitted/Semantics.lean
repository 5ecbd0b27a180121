import ControlPlane.ReadCommitted.Program

/-!
# Sessions under READ COMMITTED

Sessions run their programs one operation at a time, in any order. A statement sees what was
committed when it started and its own transaction's writes; written or locked rows stay locked, and
entered or left keys of a partial unique index reserved, until the transaction ends. An operation
that has to wait is not enabled. A session can die at any point: a lost connection, a deadlock
victim, a killed process.
-/

namespace ReadCommitted

open List Option

variable {Key : Type} [DecidableEq Key] {Row : Key → Type}
  {Index Req Resp Upstream Call α : Type} [DecidableEq Index]

/-- What the database enforces on every row, and the service behind the handlers. -/
structure Schema (Row : Key → Type) (Index Req Resp Upstream : Type) where
  /-- The partial unique index entry of a row, if its predicate holds. -/
  index : (key : Key) → Row key → Option Index
  check : (key : Key) → Row key → Bool
  serve : Req → Upstream → Resp × Upstream
  /-- What a handler sees of a call that got no answer. -/
  unanswered : Resp

/-- How a call to the service ends: answered, applied with the answer lost, or never delivered. -/
inductive Delivery where
  | answered
  | lost
  | undelivered
deriving DecidableEq, Repr

/-- What the environment decides about one operation. -/
structure Choice (Key : Type) where
  order : List Key
  delivery : Delivery

structure Shared (Row : Key → Type) (Index Upstream : Type) where
  committed : AList Row
  upstream : Upstream
  clock : Instant
  nextId : Nat
  locks : Key → Option Nat
  reserved : Index → Option Nat

structure Txn (Row : Key → Type) where
  start : Instant
  writes : AList Row
  saved : AList Row
  readings : List Instant
  refused : List Key

def Txn.idle : Txn Row := { start := 0, writes := ∅, saved := ∅, readings := [], refused := [] }

def available (owner : Option Nat) (sid : Nat) : Bool :=
  owner = none ∨ owner = some sid

def release {ι : Type} (table : ι → Option Nat) (sid : Nat) : ι → Option Nat :=
  fun i => if table i = some sid then none else table i

def visible (sh : Shared Row Index Upstream) (tx : Txn Row) : AList Row :=
  tx.writes ∪ sh.committed

/-- Another row of the database carries the index entry. A transaction that has itself moved that
row out of the index would still be refused here; the handlers insert before they update. -/
def occupied (S : Schema Row Index Req Resp Upstream) (db : AList Row) (key : Key) (i : Index) :
    Bool :=
  db.keys.any fun other => other ≠ key ∧ (db.lookup other).bind (S.index other) = some i

inductive Verdict where
  | accept
  | wait
  | refuse (e : ConstraintError)
deriving DecidableEq

def verdict (S : Schema Row Index Req Resp Upstream) (sid : Nat) (sh : Shared Row Index Upstream)
    (tx : Txn Row) (key : Key) (old : Option (Row key)) (row : Row key) : Verdict :=
  if S.check key row then
    match S.index key row with
    | none => .accept
    | some i =>
      if old.bind (S.index key) = some i then .accept
      else if available (sh.reserved i) sid then
        if occupied S sh.committed key i ∨ occupied S tx.writes key i then .refuse .unique
        else .accept
      else .wait
  else .refuse .check

def reserve (table : Index → Option Nat) (sid : Nat) : Option Index → Index → Option Nat
  | none => table
  | some i => Function.update table i (some sid)

/-- Put a new version in the write set, locked, with the index entries it left and entered
reserved. -/
def place (S : Schema Row Index Req Resp Upstream) (sid : Nat) (sh : Shared Row Index Upstream)
    (tx : Txn Row) (key : Key) (old : Option (Row key)) (row : Row key) :
    Shared Row Index Upstream × Txn Row :=
  ({ sh with
      locks := Function.update sh.locks key (some sid)
      reserved := reserve (reserve sh.reserved sid (old.bind (S.index key))) sid (S.index key row) },
    { tx with writes := tx.writes.insert key row })

def refuse (tx : Txn Row) (key : Key) : Txn Row := { tx with refused := key :: tx.refused }

def settle (sid : Nat) (sh : Shared Row Index Upstream) (db : AList Row) :
    Shared Row Index Upstream :=
  { sh with committed := db, locks := release sh.locks sid, reserved := release sh.reserved sid }

/-- One operation of session `sid`: its answer and its effect, or `none` while it has to wait. -/
def Op.exec (S : Schema Row Index Req Resp Upstream) (sid : Nat) (choice : Choice Key)
    (sh : Shared Row Index Upstream) (tx : Txn Row) :
    (o : Op Row Req) → Option (o.Result Resp × Shared Row Index Upstream × Txn Row)
  | .begin => some ((), sh, { tx with start := sh.clock })
  | .commit =>
    some ((), settle sid sh (visible sh tx), { tx with writes := ∅, saved := tx.writes })
  | .rollback => some ((), settle sid sh sh.committed, { tx with writes := ∅ })
  | .utcNow => some (sh.clock, sh, { tx with readings := sh.clock :: tx.readings })
  | .sqlNow => some (tx.start, sh, tx)
  | .fresh => some (sh.nextId, { sh with nextId := sh.nextId + 1 }, tx)
  | .snapshot => some (visible sh tx, sh, tx)
  | .shuffle keys => if choice.order.Perm keys then some (choice.order, sh, tx) else none
  | .lock key =>
    match (visible sh tx).lookup key with
    | none => some (none, sh, tx)
    | some row =>
      if available (sh.locks key) sid then
        some (some row, { sh with locks := Function.update sh.locks key (some sid) }, tx)
      else none
  | .skipLocked key =>
    match (visible sh tx).lookup key with
    | none => some (none, sh, tx)
    | some row =>
      if available (sh.locks key) sid then
        some (some row, { sh with locks := Function.update sh.locks key (some sid) }, tx)
      else some (none, sh, tx)
  | .write key row =>
    if sh.locks key = some sid then
      let old := (visible sh tx).lookup key
      match verdict S sid sh tx key old row with
      | .accept => some (.ok (), place S sid sh tx key old row)
      | .wait => none
      | .refuse e => some (.error e, sh, refuse tx key)
    else none
  | .insert key row =>
    let seen := visible sh tx
    match verdict S sid sh tx key none (row seen) with
    | .refuse .check => some (.error .check, sh, refuse tx key)
    | .refuse .unique => some (.ok false, sh, tx)
    | .wait => if key ∈ seen then some (.ok false, sh, tx) else none
    | .accept =>
      if key ∈ seen then some (.ok false, sh, tx)
      else if available (sh.locks key) sid then
        some (.ok true, place S sid sh tx key none (row seen))
      else none
  | .upsert key row update =>
    if available (sh.locks key) sid then
      -- the proposed row is checked even when the stored one is updated instead
      if S.check key row then
        let old := (visible sh tx).lookup key
        let new := old.elim row update
        match verdict S sid sh tx key old new with
        | .accept => some (.ok new, place S sid sh tx key old new)
        | .wait => none
        | .refuse e => some (.error e, sh, refuse tx key)
      else some (.error .check, sh, refuse tx key)
    else none
  | .request req =>
    match choice.delivery with
    | .answered =>
      let served := S.serve req sh.upstream
      some (served.1, { sh with upstream := served.2 }, tx)
    | .lost => some (S.unanswered, { sh with upstream := (S.serve req sh.upstream).2 }, tx)
    | .undelivered => some (S.unanswered, sh, tx)

structure Session (Row : Key → Type) (Req Resp Call α : Type) where
  call : Call
  prog : Option (Prog Row Req Resp α)
  txn : Txn Row

structure Sys (Row : Key → Type) (Index Req Resp Upstream Call α : Type)
    extends Shared Row Index Upstream where
  sessions : Nat → Option (Session Row Req Resp Call α)

inductive Action (Key Call : Type) where
  | start (sid : Nat) (call : Call)
  | run (sid : Nat) (choice : Choice Key)
  | crash (sid : Nat)
  | tick (elapsed : Nat)

/-- The deployed system: a schema and the program that handles each call. -/
structure Server (Row : Key → Type) (Index Req Resp Upstream Call α : Type) where
  schema : Schema Row Index Req Resp Upstream
  handler : Call → Prog Row Req Resp α

def Sys.setSession (s : Sys Row Index Req Resp Upstream Call α) (sid : Nat)
    (session : Session Row Req Resp Call α) (sh : Shared Row Index Upstream) :
    Sys Row Index Req Resp Upstream Call α :=
  { toShared := sh, sessions := Function.update s.sessions sid (some session) }

variable (V : Server Row Index Req Resp Upstream Call α)

def step (s : Sys Row Index Req Resp Upstream Call α) :
    Action Key Call → Option (Sys Row Index Req Resp Upstream Call α)
  | .start sid call =>
    match s.sessions sid with
    | none => some (s.setSession sid ⟨call, some (V.handler call), .idle⟩ s.toShared)
    | some _ => none
  | .run sid choice =>
    match s.sessions sid with
    | some ⟨call, some (.op o next), tx⟩ =>
      (o.exec V.schema sid choice s.toShared tx).map fun out =>
        s.setSession sid ⟨call, some (next out.1), out.2.2⟩ out.2.1
    | _ => none
  | .crash sid =>
    match s.sessions sid with
    | some ⟨call, some (.op _ _), tx⟩ =>
      some (s.setSession sid ⟨call, none, { tx with writes := ∅ }⟩
        (settle sid s.toShared s.committed))
    | _ => none
  | .tick elapsed => some { s with clock := s.clock + elapsed }

/-- `s'` can be reached from `s` by steps that all meet `ok`. -/
inductive Reaches (ok : Sys Row Index Req Resp Upstream Call α → Action Key Call → Prop) :
    Sys Row Index Req Resp Upstream Call α → Sys Row Index Req Resp Upstream Call α → Prop
  | refl (s) : Reaches ok s s
  | tail {s t u a} : Reaches ok s t → ok t a → step V t a = some u → Reaches ok s u

structure Event (Row : Key → Type) (Index Req Resp Upstream Call α : Type) where
  before : Sys Row Index Req Resp Upstream Call α
  action : Action Key Call
  after : Sys Row Index Req Resp Upstream Call α

/-- A run from `s` with everything that happened in it, latest first. -/
inductive Run (ok : Sys Row Index Req Resp Upstream Call α → Action Key Call → Prop)
    (s : Sys Row Index Req Resp Upstream Call α) :
    List (Event Row Index Req Resp Upstream Call α) → Sys Row Index Req Resp Upstream Call α → Prop
  | nil : Run ok s [] s
  | cons {history t a u} : Run ok s history t → ok t a → step V t a = some u →
      Run ok s (⟨t, a, u⟩ :: history) u

def anyStep (_ : Sys Row Index Req Resp Upstream Call α) (_ : Action Key Call) : Prop := True

/-- A database at rest: no session has begun and nothing is locked. -/
def Sys.AtRest (s : Sys Row Index Req Resp Upstream Call α) : Prop :=
  (∀ sid, s.sessions sid = none) ∧ (∀ key, s.locks key = none) ∧ ∀ i, s.reserved i = none

def checkedSchedule (ok : Sys Row Index Req Resp Upstream Call α → Action Key Call → Bool)
    (s : Sys Row Index Req Resp Upstream Call α) :
    List (Action Key Call) → Option (Sys Row Index Req Resp Upstream Call α)
  | [] => some s
  | a :: rest =>
    if ok s a then (step V s a).bind fun t => checkedSchedule ok t rest else none

def runSchedule (s : Sys Row Index Req Resp Upstream Call α) (actions : List (Action Key Call)) :
    Option (Sys Row Index Req Resp Upstream Call α) :=
  checkedSchedule V (fun _ _ => true) s actions

def recordSchedule (history : List (Event Row Index Req Resp Upstream Call α))
    (s : Sys Row Index Req Resp Upstream Call α) :
    List (Action Key Call) → Option (List (Event Row Index Req Resp Upstream Call α) ×
      Sys Row Index Req Resp Upstream Call α)
  | [] => some (history, s)
  | a :: rest => (step V s a).bind fun t => recordSchedule (⟨s, a, t⟩ :: history) t rest

section Reachability

variable {V} {ok : Sys Row Index Req Resp Upstream Call α → Action Key Call → Prop}
  {s t u : Sys Row Index Req Resp Upstream Call α}

theorem Reaches.trans (hst : Reaches V ok s t) (htu : Reaches V ok t u) : Reaches V ok s u := by
  induction htu with
  | refl => exact hst
  | tail _ hok hstep ih => exact .tail ih hok hstep

theorem Reaches.invariant {I : Sys Row Index Req Resp Upstream Call α → Prop}
    (hstep : ∀ s t a, I s → ok s a → step V s a = some t → I t)
    (hreach : Reaches V ok s t) (hinit : I s) : I t := by
  induction hreach with
  | refl => exact hinit
  | tail _ hok hact ih => exact hstep _ _ _ ih hok hact

variable {history : List (Event Row Index Req Resp Upstream Call α)}
  {ok' : Sys Row Index Req Resp Upstream Call α → Action Key Call → Prop}

theorem Run.reaches (hrun : Run V ok s history t) : Reaches V ok s t := by
  induction hrun with
  | nil => exact .refl s
  | cons _ hok hstep ih => exact .tail ih hok hstep

theorem Run.before {earlier : List (Event Row Index Req Resp Upstream Call α)}
    {e : Event Row Index Req Resp Upstream Call α} (hrun : Run V ok s history t)
    (hsuffix : e :: earlier <:+ history) :
    Run V ok s earlier e.before ∧ ok e.before e.action ∧ step V e.before e.action = some e.after := by
  induction hrun with
  | nil => simp at hsuffix
  | cons hrun hok hstep ih =>
    obtain heq | hrest := suffix_cons_iff.mp hsuffix
    · obtain ⟨rfl, rfl⟩ := cons.inj heq
      exact ⟨hrun, hok, hstep⟩
    · exact ih hrest

theorem Run.of_forall (hrun : Run V ok s history t) (hall : ∀ e ∈ history, ok' e.before e.action) :
    Run V ok' s history t := by
  induction hrun with
  | nil => exact .nil
  | cons _ _ hstep ih =>
    obtain ⟨hok, hrest⟩ := forall_mem_cons.mp hall
    exact .cons (ih hrest) hok hstep

theorem Reaches.exists_run (hreach : Reaches V ok s t) : ∃ history, Run V ok s history t := by
  induction hreach with
  | refl => exact ⟨[], .nil⟩
  | tail _ hok hstep ih =>
    obtain ⟨history, hrun⟩ := ih
    exact ⟨_, .cons hrun hok hstep⟩

theorem Reaches.mono (himp : ∀ s a, ok s a → ok' s a) (hreach : Reaches V ok s t) :
    Reaches V ok' s t := by
  induction hreach with
  | refl => exact .refl _
  | tail _ hok hstep ih => exact .tail ih (himp _ _ hok) hstep

theorem unstarted_step {a : Action Key Call} {sid : Nat} (hstep : step V s a = some t)
    (hnone : s.sessions sid = none) (hstart : ∀ call, a ≠ .start sid call) :
    t.sessions sid = none := by
  have hother {other : Nat} {session : Session Row Req Resp Call α} {sh : Shared Row Index Upstream}
      (hne : sid ≠ other) : (s.setSession other session sh).sessions sid = none :=
    (Function.update_of_ne hne ..).trans hnone
  cases a with
  | start other call =>
    have hne : sid ≠ other := by
      rintro rfl
      exact hstart call rfl
    simp only [step] at hstep
    split at hstep
    · exact some.inj hstep ▸ hother hne
    · simp at hstep
  | run other choice =>
    have hne : sid ≠ other := by
      rintro rfl
      simp [step, hnone] at hstep
    simp only [step] at hstep
    split at hstep
    · obtain ⟨out, -, ht⟩ := map_eq_some_iff.mp hstep
      exact ht ▸ hother hne
    · simp at hstep
  | crash other =>
    have hne : sid ≠ other := by
      rintro rfl
      simp [step, hnone] at hstep
    simp only [step] at hstep
    split at hstep
    · exact some.inj hstep ▸ hother hne
    · simp at hstep
  | tick elapsed => exact some.inj hstep ▸ hnone

variable {actions : List (Action Key Call)}
  {check : Sys Row Index Req Resp Upstream Call α → Action Key Call → Bool}

theorem run_of_recordSchedule_mem :
    ∀ {history history' : List (Event Row Index Req Resp Upstream Call α)}
      {t u : Sys Row Index Req Resp Upstream Call α}, Run V ok s history t →
      recordSchedule V history t actions = some (history', u) → (∀ a ∈ actions, ∀ v, ok v a) →
      Run V ok s history' u ∧ history <:+ history' ∧
        ∀ sid, t.sessions sid = none → (∀ call, .start sid call ∉ actions) →
          u.sessions sid = none := by
  induction actions with
  | nil =>
    intro history history' t u hrun hschedule _
    obtain ⟨rfl, rfl⟩ : history = history' ∧ t = u := by simpa [recordSchedule] using hschedule
    exact ⟨hrun, suffix_refl _, fun _ hnone _ => hnone⟩
  | cons a rest ih =>
    intro history history' t u hrun hschedule hok
    obtain ⟨v, hstep, hrest⟩ := bind_eq_some_iff.mp hschedule
    obtain ⟨hrun', hsuffix, hunstarted⟩ := ih (.cons hrun (hok a mem_cons_self t) hstep) hrest
      fun b hmem => hok b (mem_cons_of_mem a hmem)
    refine ⟨hrun', (suffix_cons _ _).trans hsuffix, fun sid hnone hstart => ?_⟩
    refine hunstarted sid (unstarted_step hstep hnone fun call heq => ?_) fun call hmem => ?_
    · exact hstart call (heq ▸ mem_cons_self)
    · exact hstart call (mem_cons_of_mem a hmem)

theorem run_of_recordSchedule (hschedule : recordSchedule V [] s actions = some (history, t)) :
    Run V anyStep s history t :=
  (run_of_recordSchedule_mem .nil hschedule fun _ _ _ => trivial).1

theorem reaches_of_checkedSchedule_mem :
    ∀ {s t : Sys Row Index Req Resp Upstream Call α}, checkedSchedule V check s actions = some t →
      Reaches V (fun u a => check u a = true ∧ a ∈ actions ∧ ∀ sid, s.sessions sid = none →
        (∀ call, .start sid call ∉ actions) → u.sessions sid = none) s t := by
  induction actions with
  | nil =>
    intro s t hschedule
    obtain rfl : s = t := by simpa [checkedSchedule] using hschedule
    exact .refl s
  | cons a rest ih =>
    intro s t hschedule
    simp only [checkedSchedule, ite_none_right_eq_some] at hschedule
    obtain ⟨hcheck, hschedule⟩ := hschedule
    obtain ⟨u, hstep, hrest⟩ := bind_eq_some_iff.mp hschedule
    refine Reaches.trans (.tail (.refl s) ⟨hcheck, mem_cons_self, fun _ h _ => h⟩ hstep) ?_
    refine (ih hrest).mono fun v b hok => ⟨hok.1, mem_cons_of_mem a hok.2.1, ?_⟩
    intro sid hnone hstart
    refine hok.2.2 sid (unstarted_step hstep hnone fun call heq => ?_) fun call hmem => ?_
    · exact hstart call (heq ▸ mem_cons_self)
    · exact hstart call (mem_cons_of_mem a hmem)

theorem reaches_of_checkedSchedule (hschedule : checkedSchedule V check s actions = some t) :
    Reaches V (fun s a => check s a = true) s t :=
  (reaches_of_checkedSchedule_mem hschedule).mono fun _ _ hok => hok.1

theorem reaches_of_runSchedule (hschedule : runSchedule V s actions = some t) :
    Reaches V anyStep s t :=
  (reaches_of_checkedSchedule hschedule).mono fun _ _ _ => trivial

end Reachability

end ReadCommitted
