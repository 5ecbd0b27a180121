import ControlPlane.Proof.Outbox

/-!
# How often and by whom a notification is delivered

What stays true of a closed row of the outbox, how often a row is claimed, and in whose hands it is.
-/

namespace ControlPlane

open ReadCommitted Store Dispatch Function List Option

variable {cfg : Config} {s t u : State} {id : Uuid}

def committedRow (id : Uuid) (t : State) : Action Key Call → Option OutboxRow
  | .run sid _ =>
    match t.sessions sid with
    | some ⟨_, some (.op .commit _), tx⟩ => tx.writes.lookup (.outbox id)
    | _ => none
  | _ => none

def noLateFailure (id : Uuid) (t : State) (a : Action Key Call) : Bool :=
  (t.committed.lookup (.outbox id)).all fun row : OutboxRow =>
    row.status ≠ .sent || (committedRow id t a).all fun new => new.lastError = none

variable {row : OutboxRow} {now : Instant} {new : OutboxRow}

theorem status_of_isDue (hdue : isDue now row = true) :
    row.status = .pending ∧ row.nextAttemptAt ≤ now := by
  simpa [isDue] using hdue

theorem Settled.attempts (hnew : Settled row new) : new.attempts = row.attempts := by
  cases hnew <;> rfl

theorem Settled.pending (hnew : Settled row new) (hpending : new.status = .pending) :
    row.status = .pending ∧ row.attempts < maxAttempts := by
  cases hnew with
  | sent _ hrow => cases hpending
  | undelivered error now row =>
    simp only [Store.undelivered] at hpending
    split_ifs at hpending with hcap
    exact ⟨hpending, not_le.mp hcap⟩

variable {e : Step} {attempts : Nat} {ids : List Uuid}

/-- Nothing but the record of a failed delivery changes a row that is no longer pending. -/
theorem closed_step (hstep : OutboxStep id e)
    (hrow : e.before.committed.lookup (.outbox id) = some row) (hclosed : row.status ≠ .pending) :
    e.after.committed.lookup (.outbox id) = some row ∨ ∃ error now,
      e.after.committed.lookup (.outbox id) = some (undelivered error now row) ∧
      committedRow id e.before e.action = some (undelivered error now row) := by
  obtain ⟨g, g', hstep⟩ := hstep
  cases hstep with
  | unchanged _ hsame => exact .inl (hsame.trans hrow)
  | enqueued _ _ _ _ _ hnone => simp [hnone] at hrow
  | claimed _ _ _ _ _ _ _ _ old _ hold hdue =>
    obtain rfl := Option.some.inj (hold.symm.trans hrow)
    exact absurd (status_of_isDue hdue).1 hclosed
  | settled sid choice ha _ _ _ hsession old new hwritten hold hnew hafter =>
    obtain rfl := Option.some.inj (hold.symm.trans hrow)
    cases hnew with
    | sent _ hpending => exact absurd hpending hclosed
    | undelivered error now old =>
      exact .inr ⟨error, now, hafter, by simp [committedRow, ha, hsession, hwritten]⟩

/-- **Closed notifications.** A row that is dead stays dead. A row that is sent keeps its status,
error and time in every run in which no dispatcher records a failed delivery of it after that. -/
theorem closed_stays_closed {row : OutboxRow} (hboot : Booted cfg s)
    (hreach : Reaches (server cfg) anyStep s t)
    (hrow : t.committed.lookup (.outbox id) = some row) :
    (row.status = .dead → ∀ u, Reaches (server cfg) anyStep t u → ∃ row' : OutboxRow,
      u.committed.lookup (.outbox id) = some row' ∧ row'.status = .dead) ∧
    (row.status = .sent → ∀ u, Reaches (server cfg) (fun t a => noLateFailure id t a = true) t u →
      ∃ row' : OutboxRow, u.committed.lookup (.outbox id) = some row' ∧ row'.status = .sent ∧
        row'.lastError = row.lastError ∧ row'.nextAttemptAt = row.nextAttemptAt) := by
  constructor
  · intro hdead u hu
    refine (hu.invariant (I := fun u => Reaches (server cfg) anyStep s u ∧ ∃ row' : OutboxRow,
      u.committed.lookup (.outbox id) = some row' ∧ row'.status = .dead) ?_
      ⟨hreach, row, hrow, hdead⟩).2
    rintro v w a ⟨hv, row', hrow', hdead'⟩ hok hstep
    refine ⟨.tail hv hok hstep, ?_⟩
    obtain hsame | ⟨error, now, hafter, -⟩ :=
      closed_step (outboxStep_of_reaches hboot hv hstep id) hrow' (by simp [hdead'])
    · exact ⟨row', hsame, hdead'⟩
    · exact ⟨_, hafter, by simp [undelivered, hdead']⟩
  · intro hsent u hu
    have hkept : u.committed.lookup (.outbox id) = some row := by
      refine (hu.invariant (I := fun u => Reaches (server cfg) anyStep s u ∧
        u.committed.lookup (.outbox id) = some row) ?_ ⟨hreach, hrow⟩).2
      rintro v w a ⟨hv, hrow'⟩ hok hstep
      refine ⟨.tail hv trivial hstep, ?_⟩
      obtain hsame | ⟨error, now, -, hlate⟩ :=
        closed_step (outboxStep_of_reaches hboot hv hstep id) hrow' (by simp [hsent])
      · exact hsame
      · simp [noLateFailure, hlate, hrow', hsent, undelivered] at hok
    exact ⟨row, hkept, hsent, rfl, rfl⟩

def demoRow (attempts : Nat) (id : Uuid) : OutboxRow :=
  ⟨id, 3, .provisioningFailed, .null, .pending, attempts, 0, none⟩

def demoQueue (attempts : Nat) (ids : List Uuid) : State :=
  { demoState with
    committed := ids.foldl (fun db id => db.insert (.outbox id) (demoRow attempts id))
      demoState.committed }

theorem lookup_demoQueue_job (id : Uuid) :
    (demoQueue attempts ids).committed.lookup (.job id) = demoState.committed.lookup (.job id) := by
  unfold demoQueue
  generalize demoState.committed = db
  induction ids generalizing db with
  | nil => rfl
  | cons first rest ih => rw [foldl_cons, ih, AList.lookup_insert_ne (by simp)]

theorem demoQueue_booted (cfg : Config) :
    Booted cfg (demoQueue attempts ids) where
  atRest := (demo_booted cfg).atRest
  jobs id row hrow := by
    rw [lookup_demoQueue_job] at hrow
    exact (demo_booted cfg).jobs id row hrow
  oneActive id id' row row' hrow hrow' := by
    rw [lookup_demoQueue_job] at hrow hrow'
    exact (demo_booted cfg).oneActive id id' row row' hrow hrow'

def claimPass (sid : Nat) (outcome : Option String) (ids : List Uuid) : List (Action Key Call) :=
  .start sid (.dispatch fun _ => outcome) ::
    List.replicate (9 + 3 * ids.length) (.run sid ⟨ids.map .outbox, .answered⟩)

def recordPass (sid : Nat) : List (Action Key Call) := List.replicate 6 (.run sid ⟨[], .answered⟩)

def deliveredAgain : List (Action Key Call) :=
  claimPass 0 (some "timeout") [11] ++ .tick 60000000 :: claimPass 1 none [11] ++ recordPass 1

structure Closing where
  status : OutboxStatus
  lastError : Option String
  nextAttemptAt : Instant
deriving DecidableEq

def closing (id : Uuid) (t : State) : Option Closing :=
  (t.committed.lookup (.outbox id)).map fun row : OutboxRow =>
    ⟨row.status, row.lastError, row.nextAttemptAt⟩

theorem closing_eq_some {status : OutboxStatus} {error : Option String} {next : Instant}
    (hclosing : closing id t = some ⟨status, error, next⟩) : ∃ row : OutboxRow,
      t.committed.lookup (.outbox id) = some row ∧ row.status = status ∧ row.lastError = error ∧
        row.nextAttemptAt = next := by
  obtain ⟨row, hrow, heq⟩ := map_eq_some_iff.mp hclosing
  simp only [Closing.mk.injEq] at heq
  exact ⟨row, hrow, heq⟩

theorem closed_stays_closed_sent :
    ∃ (t u : State) (row row' : OutboxRow),
      Reaches (server demoConfig) (fun t a => noLateFailure 11 t a = true) t u ∧
      t.committed.lookup (.outbox 11) = some row ∧ row.status = .sent ∧
      u.committed.lookup (.outbox 11) = some row' ∧ row'.status = .sent ∧
      row'.nextAttemptAt = row.nextAttemptAt := by
  have hrun : (runSchedule (server demoConfig) (demoQueue 4 [11]) deliveredAgain).bind (fun t =>
      (checkedSchedule (server demoConfig) (noLateFailure 11) t
        (alone 2 (.dispatch fun _ => none) 5)).map fun _ => closing 11 t) =
      some (some ⟨.sent, none, 120000000⟩) := by decide
  obtain ⟨t, hschedule, hlater⟩ := bind_eq_some_iff.mp hrun
  obtain ⟨u, hu, hstatus⟩ := map_eq_some_iff.mp hlater
  obtain ⟨row, hrow, hsent, -⟩ := closing_eq_some hstatus
  have hreach := reaches_of_checkedSchedule hu
  obtain ⟨row', hrow', hsent', -, hnext⟩ := (closed_stays_closed (demoQueue_booted demoConfig)
    (reaches_of_runSchedule hschedule) hrow).2 hsent u hreach
  exact ⟨t, u, row, row', hreach, hrow, hsent, hrow', hsent', hnext⟩

/-- The first dispatcher records its failure after the row is sent: the row is dead, with an error and
another time. -/
theorem sent_becomes_dead :
    ∃ (t u : State) (row row' : OutboxRow),
      Reaches (server demoConfig) anyStep (demoQueue 4 [11]) t ∧
      Reaches (server demoConfig) anyStep t u ∧
      t.committed.lookup (.outbox 11) = some row ∧ row.status = .sent ∧ row.lastError = none ∧
      u.committed.lookup (.outbox 11) = some row' ∧ row'.status = .dead ∧
      row'.lastError = some "timeout" ∧ row'.nextAttemptAt ≠ row.nextAttemptAt := by
  have hrun : (runSchedule (server demoConfig) (demoQueue 4 [11]) deliveredAgain).bind (fun t =>
      (runSchedule (server demoConfig) t (recordPass 0)).map fun u =>
        (closing 11 t, closing 11 u)) =
      some (some ⟨.sent, none, 120000000⟩, some ⟨.dead, some "timeout", 1860000000⟩) := by
    decide
  obtain ⟨t, hschedule, hlater⟩ := bind_eq_some_iff.mp hrun
  obtain ⟨u, hu, hstatus⟩ := map_eq_some_iff.mp hlater
  obtain ⟨hbefore, hafter⟩ := Prod.mk.inj hstatus
  obtain ⟨row, hrow, hsent, herror, hnext⟩ := closing_eq_some hbefore
  obtain ⟨row', hrow', hdead, herror', hnext'⟩ := closing_eq_some hafter
  refine ⟨t, u, row, row', reaches_of_runSchedule hschedule, reaches_of_runSchedule hu, hrow, hsent,
    herror, hrow', hdead, herror', ?_⟩
  rw [hnext, hnext']
  decide

def attemptsOf (id : Uuid) (t : State) : Nat :=
  (t.committed.lookup (.outbox id)).elim 0 fun row : OutboxRow => row.attempts

def claimsRow (id : Uuid) (e : Step) : Bool := attemptsOf id e.before < attemptsOf id e.after

/-- The session whose transaction the step commits, if it has written the row, and when it began. -/
def rowCommit (id : Uuid) (e : Step) : Option (Nat × Instant) :=
  match e.action with
  | .run sid _ =>
    match e.before.sessions sid with
    | some ⟨_, some (.op .commit _), tx⟩ =>
      if Key.outbox id ∈ tx.writes then some (sid, tx.start) else none
    | _ => none
  | _ => none

def outstanding (id : Uuid) : List Step → Bool
  | [] => false
  | e :: earlier => if (rowCommit id e).isSome then claimsRow id e else outstanding id earlier

theorem rowCommit_isSome (e : Step) :
    (rowCommit id e).isSome = (Protocol.committing (.outbox id) e.before e.action).isSome := by
  obtain ⟨before, action, after⟩ := e
  unfold rowCommit Protocol.committing
  cases action with
  | run sid choice =>
    simp only
    generalize before.sessions sid = σ
    split
    · split_ifs with hmem <;> simp [hmem]
    · rename_i hother
      split
      · exact absurd rfl (hother _ _ _)
      · rfl
  | _ => rfl

variable {sid : Nat} {choice : Choice Key} {start : Instant} {g : Phase}

theorem rowCommit_of_commit {call : Call} {next} {tx : Txn Row} (ha : e.action = .run sid choice)
    (hsession : e.before.sessions sid = some ⟨call, some (.op .commit next), tx⟩)
    (hwritten : tx.writes.lookup (.outbox id) = some row) :
    rowCommit id e = some (sid, tx.start) := by
  have hmem : Key.outbox id ∈ tx.writes := AList.lookup_isSome.mp (by simp [hwritten])
  simp [rowCommit, ha, hsession, hmem]

theorem rowCommit_session {sid' : Nat}
    (hcommit : rowCommit id ⟨t, .run sid choice, u⟩ = some (sid', start)) : sid = sid' := by
  unfold rowCommit at hcommit
  simp only at hcommit
  split at hcommit
  · split_ifs at hcommit
    exact (Prod.mk.inj (Option.some.inj hcommit)).1
  · cases hcommit

theorem attemptsOf_eq (hrow : t.committed.lookup (.outbox id) = some row) :
    attemptsOf id t = row.attempts := by
  simp [attemptsOf, hrow]

theorem attempts_of_step {g' : Phase} (hstep : RowStep id e.before e.after e.action g g') :
    attemptsOf id e.after = attemptsOf id e.before + if claimsRow id e then 1 else 0 := by
  have hkept (heq : attemptsOf id e.after = attemptsOf id e.before) :
      attemptsOf id e.after = attemptsOf id e.before + if claimsRow id e then 1 else 0 := by
    simp [claimsRow, heq]
  cases hstep with
  | unchanged _ hsame => exact hkept (by simp only [attemptsOf, hsame])
  | enqueued _ event payload now channel hnone hrow =>
    apply hkept
    rw [attemptsOf_eq hrow]
    simp [attemptsOf, hnone, Store.enqueued]
  | claimed _ _ _ _ _ _ _ _ row _ hold _ hrow =>
    have hgrown : attemptsOf id e.after = attemptsOf id e.before + 1 := by
      rw [attemptsOf_eq hrow, attemptsOf_eq hold]
      rfl
    simp [claimsRow, hgrown]
  | settled _ _ _ _ _ _ _ row new _ hold hnew hrow =>
    apply hkept
    rw [attemptsOf_eq hrow, attemptsOf_eq hold, hnew.attempts]

theorem claimsRow_of_leased (hold : e.before.committed.lookup (.outbox id) = some row)
    (hrow : e.after.committed.lookup (.outbox id) = some (leased now row)) :
    claimsRow id e = true := by
  simp [claimsRow, attemptsOf_eq hold, attemptsOf_eq hrow, leased]

/-- What is known of a row after a run whose claims all found the previous outcome recorded. -/
structure Capped (id : Uuid) (history : List Step) (t : State) : Prop where
  counted : attemptsOf id t = (history.filter (claimsRow id)).length
  capped : attemptsOf id t ≤ maxAttempts
  closed : ∀ row : OutboxRow, t.committed.lookup (.outbox id) = some row → row.status = .pending →
    outstanding id history = false → row.attempts < maxAttempts

variable {history : List Step}

theorem Capped.step (hcapped : Capped id history e.before) (hstep : OutboxStep id e)
    (hsettled : claimsRow id e = true → outstanding id history = false) :
    Capped id (e :: history) e.after := by
  obtain ⟨g, g', hstep⟩ := hstep
  have hcounted : attemptsOf id e.after = ((e :: history).filter (claimsRow id)).length := by
    rw [attempts_of_step hstep, hcapped.counted, filter_cons]
    split_ifs <;> simp
  cases hstep with
  | unchanged hnone hsame =>
    have hattempts : attemptsOf id e.after = attemptsOf id e.before := by
      simp only [attemptsOf, hsame]
    have hquiet : (rowCommit id e).isSome = false := by
      rw [rowCommit_isSome, hnone]
      rfl
    refine ⟨hcounted, hattempts ▸ hcapped.capped, fun row hrow hpending hdone => ?_⟩
    rw [outstanding, hquiet] at hdone
    exact hcapped.closed row (hsame ▸ hrow) hpending hdone
  | enqueued _ event payload now channel _ hrow =>
    refine ⟨hcounted, ?_, fun row hrow' _ _ => ?_⟩
    · rw [attemptsOf_eq hrow]
      exact Nat.zero_le _
    · obtain rfl := Option.some.inj (hrow.symm.trans hrow')
      exact Nat.succ_pos 5
  | claimed sid choice ha call next tx hsession _ row hwritten hold hdue hrow =>
    -- the previous outcome is recorded, so the row was below the cap
    have hclaim := claimsRow_of_leased hold hrow
    have hbelow := hcapped.closed row hold (status_of_isDue hdue).1 (hsettled hclaim)
    refine ⟨hcounted, ?_, fun _ _ _ hdone => ?_⟩
    · rw [attemptsOf_eq hrow]
      exact hbelow
    · rw [outstanding, rowCommit_of_commit ha hsession hwritten] at hdone
      simp [hclaim] at hdone
  | settled sid choice ha call next tx hsession row new _ hold hnew hrow =>
    refine ⟨hcounted, ?_, fun row' hrow' hpending _ => ?_⟩
    · rw [attemptsOf_eq hrow, hnew.attempts, ← attemptsOf_eq hold]
      exact hcapped.capped
    · obtain rfl := Option.some.inj (hrow.symm.trans hrow')
      rw [hnew.attempts]
      exact (hnew.pending hpending).2

/-- The sessions that have claimed the row and not written it since, with the times of their claims. -/
def holders (id : Uuid) : List Step → List (Nat × Instant)
  | [] => []
  | e :: earlier =>
    match rowCommit id e with
    | none => holders id earlier
    | some (sid, start) =>
      if claimsRow id e then (sid, start) :: (holders id earlier).filter (·.1 ≠ sid)
      else (holders id earlier).filter (·.1 ≠ sid)

def inFlight (t : State) (sid : Nat) : Bool :=
  match t.sessions sid with
  | some ⟨_, some (.op _ _), _⟩ => true
  | _ => false

def isPending (id : Uuid) (t : State) : Bool :=
  (t.committed.lookup (.outbox id)).any fun row : OutboxRow => row.status = .pending

/-- No lease of the row runs out in the hands of a live dispatcher, as long as the row is open. -/
def onTime (id : Uuid) (earlier : List Step) (t : State) : Bool :=
  (holders id earlier).all fun holder =>
    !inFlight t holder.1 || !isPending id t || t.clock < holder.2 + notificationLease

def alwaysOnTime (id : Uuid) : List Step → Bool
  | [] => true
  | e :: earlier => onTime id earlier e.before && alwaysOnTime id earlier

theorem inFlight_iff : inFlight t sid = true ↔ ∃ tx, t.InFlight sid tx := by
  unfold inFlight
  constructor
  · intro hflight
    split at hflight
    · rename_i call o next tx hsession
      exact ⟨tx, call, o, next, hsession⟩
    · cases hflight
  · rintro ⟨tx, call, o, next, hsession⟩
    rw [hsession]

theorem isPending_iff : isPending id t = true ↔
    ∃ row : OutboxRow, t.committed.lookup (.outbox id) = some row ∧ row.status = .pending := by
  simp [isPending, Option.any_eq_true]

structure Exclusive (id : Uuid) (history : List Step) (t : State) (γ : Nat → Phase) : Prop where
  hands : ∀ sid, inFlight t sid = true → id ∈ (γ sid).ids → ∃ since, (sid, since) ∈ holders id history
  leased : ∀ sid since, (sid, since) ∈ holders id history → inFlight t sid = true →
    ∀ row : OutboxRow, t.committed.lookup (.outbox id) = some row → row.status = .pending →
      since + notificationLease ≤ row.nextAttemptAt
  alone : ∀ sid sid' since since', (sid, since) ∈ holders id history →
    (sid', since') ∈ holders id history → sid ≠ sid' → inFlight t sid = true →
    inFlight t sid' = true → isPending id t = false
  present : ∀ sid since, (sid, since) ∈ holders id history →
    (t.committed.lookup (.outbox id)).isSome = true
  started : ∀ sid since, (sid, since) ∈ holders id history → t.sessions sid ≠ none

variable {γ : Nat → Phase}

theorem Exclusive.claim (hexclusive : Exclusive id history t γ) (htime : onTime id history t = true)
    (hold : t.committed.lookup (.outbox id) = some row) (hdue : isDue now row = true)
    (hclock : now ≤ t.clock) {since : Instant} (hholder : (sid, since) ∈ holders id history) :
    inFlight t sid = false := by
  by_contra hflight
  rw [Bool.not_eq_false] at hflight
  obtain ⟨hpending, hnext⟩ := status_of_isDue hdue
  have hlease := hexclusive.leased sid since hholder hflight row hold hpending
  have hlate := all_eq_true.mp htime (sid, since) hholder
  have hopen : isPending id t = true := isPending_iff.mpr ⟨row, hold, hpending⟩
  simp only [hflight, hopen, Bool.not_true, Bool.false_or, decide_eq_true_eq] at hlate
  exact absurd hlate (not_lt.mpr (hlease.trans (hnext.trans hclock)))

section Holders

variable {history : List Step} {e : Step} {sid : Nat} {start : Instant} {holder : Nat × Instant}

theorem holders_of_none (hnone : rowCommit id e = none) :
    holders id (e :: history) = holders id history := by
  simp [holders, hnone]

/-- Whoever has written the row last holds it if that was a claim; the others are not affected. -/
theorem mem_holders_of_commit (hsome : rowCommit id e = some (sid, start)) :
    holder ∈ holders id (e :: history) ↔
      holder = (sid, start) ∧ claimsRow id e = true ∨ holder ∈ holders id history ∧ holder.1 ≠ sid := by
  rw [holders, hsome]
  split_ifs with hclaim <;> simp [hclaim]

end Holders

theorem Exclusive.quiet {γ' : Nat → Phase} {a : Action Key Call}
    (hexclusive : Exclusive id history t γ) (hnone : rowCommit id ⟨t, a, u⟩ = none)
    (hsame : u.committed.lookup (.outbox id) = t.committed.lookup (.outbox id))
    (hflight : ∀ sid, inFlight u sid = true → inFlight t sid = true ∨ t.sessions sid = none)
    (hids : ∀ sid, inFlight u sid = true → id ∈ (γ' sid).ids → inFlight t sid = true ∧ id ∈ (γ sid).ids)
    (hstarted : ∀ sid, u.sessions sid = none → t.sessions sid = none) :
    Exclusive id (⟨t, a, u⟩ :: history) u γ' := by
  have hwas {sid : Nat} {since : Instant} (hholder : (sid, since) ∈ holders id history)
      (hnow : inFlight u sid = true) : inFlight t sid = true := by
    obtain h | h := hflight sid hnow
    · exact h
    · exact absurd h (hexclusive.started sid since hholder)
  have hpending : isPending id u = isPending id t := by simp only [isPending, hsame]
  constructor
  · intro sid hnow hid
    obtain ⟨hbefore, hid'⟩ := hids sid hnow hid
    rw [holders_of_none hnone]
    exact hexclusive.hands sid hbefore hid'
  · intro sid since hholder hnow row hrow
    rw [holders_of_none hnone] at hholder
    rw [hsame] at hrow
    exact hexclusive.leased sid since hholder (hwas hholder hnow) row hrow
  · intro sid sid' since since' hholder hholder' hne hnow hnow'
    rw [holders_of_none hnone] at hholder hholder'
    rw [hpending]
    exact hexclusive.alone sid sid' since since' hholder hholder' hne (hwas hholder hnow)
      (hwas hholder' hnow')
  · intro sid since hholder
    rw [holders_of_none hnone] at hholder
    rw [hsame]
    exact hexclusive.present sid since hholder
  · intro sid since hholder hgone
    rw [holders_of_none hnone] at hholder
    exact hexclusive.started sid since hholder (hstarted sid hgone)

theorem Exclusive.commit (hexclusive : Exclusive id history e.before γ)
    (hcommit : rowCommit id e = some (sid, start)) (hself : e.before.sessions sid ≠ none)
    (hflight : ∀ other, inFlight e.after other = true → inFlight e.before other = true)
    (hstarted : ∀ other, e.after.sessions other = none → e.before.sessions other = none)
    (hrow : (e.after.committed.lookup (.outbox id)).isSome = true)
    (hids : id ∈ g.ids → claimsRow id e = true)
    (hleased : claimsRow id e = true → ∀ row : OutboxRow,
      e.after.committed.lookup (.outbox id) = some row → start + notificationLease ≤ row.nextAttemptAt)
    (hothers : ∀ other since, (other, since) ∈ holders id history → other ≠ sid →
      inFlight e.after other = true → isPending id e.after = false) :
    Exclusive id (e :: history) e.after (update γ sid g) := by
  constructor
  · intro other hnow hid
    by_cases heq : other = sid
    · subst heq
      rw [update_self] at hid
      exact ⟨start, (mem_holders_of_commit hcommit).mpr (.inl ⟨rfl, hids hid⟩)⟩
    · rw [update_of_ne heq] at hid
      obtain ⟨since, hholder⟩ := hexclusive.hands other (hflight other hnow) hid
      exact ⟨since, (mem_holders_of_commit hcommit).mpr (.inr ⟨hholder, heq⟩)⟩
  · intro other since hholder hnow row hafter hpending
    obtain ⟨heq, hclaim⟩ | ⟨hholder, hne⟩ := (mem_holders_of_commit hcommit).mp hholder
    · obtain ⟨rfl, rfl⟩ := Prod.mk.inj heq
      exact hleased hclaim row hafter
    · have hclosed := hothers other since hholder hne hnow
      rw [isPending_iff.mpr ⟨row, hafter, hpending⟩] at hclosed
      cases hclosed
  · intro other other' since since' hholder hholder' hne hnow hnow'
    obtain ⟨heq, -⟩ | ⟨hholder, hother⟩ := (mem_holders_of_commit hcommit).mp hholder
    · obtain ⟨heq', -⟩ | ⟨hholder', hother'⟩ := (mem_holders_of_commit hcommit).mp hholder'
      · exact absurd ((Prod.mk.inj heq).1.trans (Prod.mk.inj heq').1.symm) hne
      · exact hothers other' since' hholder' hother' hnow'
    · exact hothers other since hholder hother hnow
  · exact fun _ _ _ => hrow
  · intro other since hholder hgone
    obtain ⟨heq, -⟩ | ⟨hholder, -⟩ := (mem_holders_of_commit hcommit).mp hholder
    · obtain ⟨rfl, rfl⟩ := Prod.mk.inj heq
      exact hself (hstarted other hgone)
    · exact hexclusive.started other since hholder (hstarted other hgone)

theorem Exclusive.step (hexclusive : Exclusive id history t γ) (htime : onTime id history t = true)
    (hstep : RowStep id t u (.run sid choice) (γ sid) g) (hself : inFlight t sid = true)
    (hflight : ∀ other, inFlight u other = true → inFlight t other = true)
    (hstarted : ∀ other, u.sessions other = none → t.sessions other = none) :
    Exclusive id (⟨t, .run sid choice, u⟩ :: history) u (update γ sid g) := by
  have hthere : t.sessions sid ≠ none := by
    obtain ⟨_, _, _, _, hsession⟩ := inFlight_iff.mp hself
    simp [hsession]
  cases hstep with
  | unchanged hnone hsame hids =>
    refine hexclusive.quiet ?_ hsame (fun other hnow => .inl (hflight other hnow))
      (fun other hnow hid => ⟨hflight other hnow, ?_⟩) hstarted
    · rw [← not_isSome_iff_eq_none, rowCommit_isSome, hnone]
      simp
    · by_cases heq : other = sid
      · subst heq
        rw [update_self] at hid
        exact hids hid
      · rwa [update_of_ne heq] at hid
  | enqueued hsome event payload now channel hnone hrow hids =>
    have hcommit : (rowCommit id ⟨t, .run sid choice, u⟩).isSome = true := by
      rw [rowCommit_isSome]
      exact hsome
    obtain ⟨⟨sid', start⟩, hcommit⟩ := isSome_iff_exists.mp hcommit
    obtain rfl := rowCommit_session hcommit
    have hfirst : claimsRow id ⟨t, .run sid choice, u⟩ = false := by
      simp [claimsRow, attemptsOf, hnone, hrow, Store.enqueued]
    refine hexclusive.commit hcommit hthere hflight hstarted (by simp [hrow])
      (fun hid => absurd hid hids) (fun hclaim => by simp [hfirst] at hclaim) ?_
    intro other since hholder
    -- nobody holds a row that has just come to be
    have hpresent := hexclusive.present other since hholder
    simp [hnone] at hpresent
  | claimed sid' choice' ha call next tx hsession hclock row hwritten hold hdue hrow =>
    obtain ⟨rfl, rfl⟩ := Action.run.inj ha
    have hclaim : claimsRow id ⟨t, .run sid choice, u⟩ = true := claimsRow_of_leased hold hrow
    refine hexclusive.commit (rowCommit_of_commit rfl hsession hwritten) hthere hflight hstarted
      (by simp [hrow]) (fun _ => hclaim) (fun _ row' hrow' => ?_) ?_
    · obtain rfl := Option.some.inj (hrow.symm.trans hrow')
      exact le_refl _
    · intro other since hholder _ hnow
      have hidle := hexclusive.claim htime hold hdue hclock hholder
      rw [hflight other hnow] at hidle
      cases hidle
  | settled sid' choice' ha call next tx hsession row new hwritten hold hnew hrow hids hdone =>
    obtain ⟨rfl, rfl⟩ := Action.run.inj ha
    have hkept : claimsRow id ⟨t, .run sid choice, u⟩ = false := by
      simp [claimsRow, attemptsOf_eq hold, attemptsOf_eq hrow, hnew.attempts]
    refine hexclusive.commit (rowCommit_of_commit rfl hsession hwritten) hthere hflight hstarted
      (by simp [hrow]) (fun hid => absurd hid hdone) (fun hclaim => by simp [hkept] at hclaim) ?_
    intro other since hholder hne hnow
    -- two live holders: the row was closed, and recording an outcome does not open it
    obtain ⟨since', hholder'⟩ := hexclusive.hands sid hself hids
    have hclosed := hexclusive.alone other sid since since' hholder hholder' hne
      (hflight other hnow) hself
    rw [← Bool.not_eq_true, isPending_iff] at hclosed ⊢
    rintro ⟨row', hrow', hpending⟩
    obtain rfl := Option.some.inj (hrow.symm.trans hrow')
    exact hclosed ⟨row, hold, (hnew.pending hpending).1⟩

theorem inFlight_setSession {session} {sh : Shared Row Index Upstream} {other : Nat}
    (hflight : inFlight (s.setSession sid session sh) other = true) :
    other = sid ∧ session.prog.isSome = true ∨ inFlight s other = true := by
  obtain ⟨tx, hflight⟩ := inFlight_iff.mp hflight
  obtain ⟨rfl, -, hlive⟩ | ⟨-, hflight⟩ := hflight.cases
  · exact .inl ⟨rfl, hlive⟩
  · exact .inr (inFlight_iff.mpr ⟨tx, hflight⟩)

theorem keeps_exclusive : script.Keeps (server cfg) anyStep (fun _ => first)
    fun history s γ => Dispatch.Holds cfg s γ ∧
      (alwaysOnTime id history = true → Exclusive id history s γ) where
  start history s γ sid call t hI _ hstep hfresh ht := by
    refine ⟨hI.1.start hstep ht, fun htime => ?_⟩
    rw [alwaysOnTime, Bool.and_eq_true] at htime
    subst ht
    refine (hI.2 htime.2).quiet rfl rfl (fun other hnow => ?_) (fun other hnow hid => ?_)
      fun other => (setSession_eq_none.mp · |>.2)
    · obtain ⟨rfl, -⟩ | hbefore := inFlight_setSession hnow
      · exact .inr hfresh
      · exact .inl hbefore
    · by_cases heq : other = sid
      · subst heq
        cases call <;> simp [first, Phase.ids] at hid
      · rw [update_of_ne heq] at hid
        obtain ⟨rfl, -⟩ | hbefore := inFlight_setSession hnow
        · exact absurd rfl heq
        · exact ⟨hbefore, hid⟩
  known _ _ _ sid call o next tx hI hsession := hI.1.known sid tx ⟨call, o, next, hsession⟩
  run history s γ sid choice call o next tx answer sh' tx' g t hI _ hstep hsession hexec hmove ht := by
    refine ⟨hI.1.run hstep hsession hexec hmove ht, fun htime => ?_⟩
    rw [alwaysOnTime, Bool.and_eq_true] at htime
    have hself : inFlight s sid = true := inFlight_iff.mpr ⟨tx, call, o, next, hsession⟩
    have hrow : RowStep id s t (.run sid choice) (γ sid) g :=
      rowStep_of_move hI.1 hstep hsession hmove
    subst ht
    refine (hI.2 htime.2).step htime.1 hrow hself (fun other hnow => ?_) fun other =>
      (setSession_eq_none.mp · |>.2)
    obtain ⟨rfl, -⟩ | hbefore := inFlight_setSession hnow
    · exact hself
    · exact hbefore
  crash history s γ sid call p tx t hI _ hstep hsession ht := by
    refine ⟨hI.1.crash hstep ht, fun htime => ?_⟩
    rw [alwaysOnTime, Bool.and_eq_true] at htime
    subst ht
    have hbefore {other : Nat} (hnow : inFlight (s.setSession sid ⟨call, none, { tx with writes := ∅ }⟩
        (settle sid s.toShared s.committed)) other = true) : inFlight s other = true := by
      obtain ⟨-, hdead⟩ | hbefore := inFlight_setSession hnow
      · cases hdead
      · exact hbefore
    exact (hI.2 htime.2).quiet rfl rfl (fun other hnow => .inl (hbefore hnow))
      (fun other hnow hid => ⟨hbefore hnow, hid⟩) fun other => (setSession_eq_none.mp · |>.2)
  tick history s γ elapsed t hI _ hstep ht := by
    refine ⟨hI.1.tick hstep ht, fun htime => ?_⟩
    rw [alwaysOnTime, Bool.and_eq_true] at htime
    subst ht
    exact (hI.2 htime.2).quiet rfl rfl (fun _ hnow => .inl hnow) (fun _ hnow hid => ⟨hnow, hid⟩)
      fun _ h => h

theorem onTime_of_suffix {earlier : List Step} (hsuffix : e :: earlier <:+ history)
    (htime : alwaysOnTime id history = true) :
    onTime id earlier e.before = true ∧ alwaysOnTime id earlier = true := by
  induction history with
  | nil => simp at hsuffix
  | cons later rest ih =>
    rw [alwaysOnTime, Bool.and_eq_true] at htime
    obtain heq | hsuffix := suffix_cons_iff.mp hsuffix
    · obtain ⟨rfl, rfl⟩ := cons.inj heq
      exact htime
    · exact ih hsuffix htime.2

theorem exclusive_of_run (hboot : Booted cfg s) (hrun : Run (server cfg) anyStep s history t)
    (htime : alwaysOnTime id history = true) : ∃ γ, Exclusive id history t γ := by
  have hinit : Exclusive id [] s fun _ => Phase.other := by
    constructor <;> simp [holders, Phase.ids]
  obtain ⟨γ, hI, -⟩ := (keeps_exclusive.holding fun _ => not_held_first).run_induct
    (fun _ _ call _ => follows_handle cfg call)
    ⟨_, ⟨⟨Dispatch.holds_of_booted hboot, fun _ => hinit⟩, holdsRows_of_booted hboot⟩,
      followed_of_booted hboot⟩ hrun
  exact ⟨γ, hI.1.2 htime⟩

/-- **One dispatcher at a time.** In a run in which no lease of an open row runs out in the hands of
a live dispatcher, a row is claimed only when no live session has it. -/
theorem claimed_by_one {history earlier : List Step} {e : Step} (hboot : Booted cfg s)
    (hrun : Run (server cfg) anyStep s history t) (htime : alwaysOnTime id history = true)
    (hsuffix : e :: earlier <:+ history) (hclaim : claimsRow id e = true) :
    ∀ holder ∈ holders id earlier, inFlight e.before holder.1 = false := by
  obtain ⟨hbefore, -, -⟩ := hrun.before hsuffix
  obtain ⟨hontime, hearlier⟩ := onTime_of_suffix hsuffix htime
  obtain ⟨γ, hexclusive⟩ := exclusive_of_run hboot hbefore hearlier
  obtain ⟨g, g', hstep⟩ := outboxStep_of_run hboot hrun e (hsuffix.subset mem_cons_self) id
  have hgrown := attempts_of_step hstep
  rw [hclaim, if_pos rfl] at hgrown
  intro holder hholder
  cases hstep with
  | claimed _ _ _ _ _ _ _ hclock row _ hold hdue =>
    exact hexclusive.claim hontime hold hdue hclock hholder
  | unchanged _ hsame => simp [attemptsOf, hsame] at hgrown
  | enqueued _ _ _ _ _ hnone hrow => simp [attemptsOf, hnone, hrow, Store.enqueued] at hgrown
  | settled _ _ _ _ _ _ _ row new _ hold hnew hrow =>
    rw [attemptsOf_eq hrow, attemptsOf_eq hold, hnew.attempts] at hgrown
    omega

/-- What the latest step of a run does to the row: whether it claims it, who commits it, and who held
it before, with whether they are alive. -/
structure Latest where
  claims : Bool
  commit : Option (Nat × Instant)
  held : List (Nat × Bool)
deriving DecidableEq

def latest (id : Uuid) : List Step → Option Latest
  | [] => none
  | e :: earlier => some ⟨claimsRow id e, rowCommit id e,
      (holders id earlier).map fun holder => (holder.1, inFlight e.before holder.1)⟩

theorem latest_eq_some {commit : Option (Nat × Instant)} {alive : Bool}
    (hlatest : latest id history = some ⟨true, commit, [(sid, alive)]⟩) :
    ∃ e earlier since, history = e :: earlier ∧ claimsRow id e = true ∧ rowCommit id e = commit ∧
      (sid, since) ∈ holders id earlier ∧ inFlight e.before sid = alive := by
  cases history with
  | nil => cases hlatest
  | cons e earlier =>
    simp only [latest, Option.some.injEq, Latest.mk.injEq] at hlatest
    obtain ⟨hclaim, hcommit, hheld⟩ := hlatest
    have hmem : (sid, alive) ∈
        (holders id earlier).map fun holder => (holder.1, inFlight e.before holder.1) := by
      rw [hheld]
      exact mem_singleton_self _
    obtain ⟨⟨sid', since⟩, hholder, heq⟩ := mem_map.mp hmem
    obtain ⟨rfl, halive⟩ := Prod.mk.inj heq
    exact ⟨e, earlier, since, rfl, hclaim, hcommit, hholder, halive⟩

theorem claimed_by_one_after_death :
    ∃ (e : Step) (earlier : List Step) (since : Instant),
      claimsRow 11 e = true ∧ rowCommit 11 e = some (1, 60000000) ∧ (0, since) ∈ holders 11 earlier ∧
      inFlight e.before 0 = false := by
  have hrun : (recordSchedule (server demoConfig) [] (demoQueue 0 [11])
      (claimPass 0 none [11] ++ [.crash 0, .tick 60000000] ++ claimPass 1 none [11])).map
      (fun r => (alwaysOnTime 11 r.1, latest 11 r.1)) =
      some (true, some ⟨true, some (1, 60000000), [(0, false)]⟩) := by decide
  obtain ⟨⟨history, t⟩, hschedule, hfacts⟩ := map_eq_some_iff.mp hrun
  obtain ⟨htime, hlatest⟩ := Prod.mk.inj hfacts
  obtain ⟨e, earlier, since, rfl, hclaim, hcommit, hholder, -⟩ := latest_eq_some hlatest
  have hidle := claimed_by_one (demoQueue_booted demoConfig) (run_of_recordSchedule hschedule) htime
    suffix_rfl hclaim (0, since) hholder
  exact ⟨e, earlier, since, hclaim, hcommit, hholder, hidle⟩

/-- Only the given sessions are started, none of them dies, and none takes longer over a delivery than
the client allows. -/
def promptly (sids : List Nat) (t : State) : Action Key Call → Bool
  | .start sid _ => sid ∈ sids
  | .run _ _ => true
  | .crash _ => false
  | .tick elapsed => sids.all fun sid => !inFlight t sid ||
      (t.sessions sid).all fun σ => t.clock + elapsed ≤ σ.txn.start + Routes.deliveryTimeout

/-- Seven rows are delivered one after the other, each within the timeout; the last one's lease has
run out then, and another dispatcher claims it. -/
theorem claimed_by_two :
    ∃ (history : List Step) (t : State) (e : Step) (earlier : List Step) (since : Instant),
      Run (server demoConfig) (fun t a => promptly [0, 1] t a = true)
        (demoQueue 0 [11, 12, 13, 14, 15, 16, 17]) history t ∧
      history = e :: earlier ∧ claimsRow 17 e = true ∧ rowCommit 17 e = some (1, 60000000) ∧
      (0, since) ∈ holders 17 earlier ∧ inFlight e.before 0 = true := by
  have hrun : (recordSchedule (server demoConfig) [] (demoQueue 0 [11, 12, 13, 14, 15, 16, 17])
      (claimPass 0 none [11, 12, 13, 14, 15, 16, 17] ++
        (replicate 6 (.tick 10000000 :: recordPass 0)).flatten ++ claimPass 1 none [17])).map
      (fun r => (r.1.all fun e => promptly [0, 1] e.before e.action, latest 17 r.1)) =
      some (true, some ⟨true, some (1, 60000000), [(0, true)]⟩) := by decide
  obtain ⟨⟨history, t⟩, hschedule, hfacts⟩ := map_eq_some_iff.mp hrun
  obtain ⟨hprompt, hlatest⟩ := Prod.mk.inj hfacts
  obtain ⟨e, earlier, since, rfl, hclaim, hcommit, hholder, halive⟩ := latest_eq_some hlatest
  exact ⟨_, t, e, earlier, since,
    (run_of_recordSchedule hschedule).of_forall fun e he => all_eq_true.mp hprompt e he, rfl,
    hclaim, hcommit, hholder, halive⟩

end ControlPlane
