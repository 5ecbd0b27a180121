import ControlPlane.Proof.Lifecycle

/-!
# Whether a parked tenant can be unparked

A park saves a snapshot before it moves the status, a restore retires it after. A restore that
retires what a park has just saved leaves a parked tenant with nothing to restore.
-/

namespace ControlPlane

open ReadCommitted ReadCommitted.Handler Store Function List Option

namespace Unparkable

inductive Phase where
  | idle
  | saved
deriving DecidableEq

variable (slug : String) (tenantId : Uuid)

inductive Move : Phase → Op Row ManagementRequest → Scene Row Upstream → Phase →
    Scene Row Upstream → Prop
  | quiet {phase o c c'}
      (hcommitted : ∀ key, lifecycleRow key → c'.committed.lookup key = c.committed.lookup key)
      (hsaved : c'.saved = c.saved ∨ phase = .idle) : Move phase o c phase c'
  | save {c} (row : ParkSnapshotRow) (hrow : unconsumed row = true)
      (hwrites : c.writes = AList.insert (.parkSnapshot tenantId) row ∅) :
      Move .idle .commit c .saved c.committing
  | flip {phase c} (row : TenantRow) (hid : row.id = tenantId) (hslug : row.slug = slug)
      (hstatus : row.status = .parked → phase = .saved)
      (hwrites : c.writes = AList.insert (.tenant tenantId) row ∅) :
      Move phase .commit c .idle c.committing
  | consume {c} (row : ParkSnapshotRow) (hrow : row.unparkedAt.isSome = true)
      (hwrites : c.writes = AList.insert (.parkSnapshot tenantId) row ∅) :
      Move .idle .commit c .idle c.committing

def script : Script Row ManagementRequest Upstream Phase where
  known _ c := Named slug tenantId c.committed
  move := Move slug tenantId

variable {slug tenantId} {cfg : Config} {status : TenantStatus} {rawSlug actor : String}

theorem ignores_script (slug : String) (tenantId : Uuid) :
    (script slug tenantId).Ignores lifecycleRow (· = .idle) :=
  fun _ _ _ _ _ hsame hsaved => .quiet hsame.committed hsaved

theorem buffers {phase : Phase} : Buffers (script slug tenantId) phase :=
  fun _ _ _ _ hcommitted _ hsaved => .quiet (fun _ _ => by rw [hcommitted]) (.inl hsaved)

theorem follows_call {context : String} {req : ManagementRequest} {phase : Phase}
    {Q : Json → AList Row → Phase → Prop} (hQ : ∀ document, Q document ∅ phase) :
    Follows schema (script slug tenantId) (Routes.requestManagement context req) ∅ phase Q
      fun _ _ _ => True :=
  follows_requestManagement fun _ _ _ _ _ _ =>
    ⟨phase, .quiet (fun _ _ => rfl) (.inl rfl), fun document _ => hQ document, fun _ => trivial⟩

theorem follows_status {phase : Phase} {Q : TenantSummary → AList Row → Phase → Prop}
    (hstatus : status = .parked → phase = .saved) (hQ : ∀ found, Q found ∅ .idle) :
    Follows schema (script slug tenantId) (setStatus cfg slug status) ∅ phase Q
      fun _ _ _ => True := by
  refine follows_setStatus (ignores_script slug tenantId) buffers (fun _ hknown => hknown)
    fun c row _ hid hslug hrow hwrites => ?_
  exact ⟨.idle, .flip row hid hslug (fun hparked => hstatus (hrow ▸ hparked)) hwrites, hQ⟩

theorem follows_park {reason : Option String} (hslug : Validation.slug rawSlug = .ok slug) :
    Follows schema (script slug tenantId) (Routes.parkTenant cfg rawSlug actor reason) ∅ .idle
      (fun _ _ _ => True) fun _ _ _ => True := by
  have hignores := ignores_script slug tenantId
  have hnamed (phase : Phase) (c : Scene Row Upstream)
      (hknown : (script slug tenantId).known phase c) : Named slug tenantId c.committed := hknown
  refine .bind (.required hslug ?_)
  refine .bind (follows_findTenant (hignores.passes _) (hnamed _) (fun _ => trivial)
    fun _ _ found _ _ _ _ => ?_)
  refine .bind (.ensure (fun _ => ?_) fun _ => trivial)
  refine .bind (.ensure (fun _ => ?_) fun _ => trivial)
  refine .bind (follows_target (hignores.passes _) (hnamed _) (fun _ => trivial)
    fun target url hid => ?_)
  subst hid
  refine .bind (follows_call fun envelope => ?_)
  refine .bind (follows_call fun posture => ?_)
  refine .bind (follows_saveParkSnapshot (P := fun row => unconsumed row = true)
    hignores buffers (fun _ _ _ => unconsumed_savedSnapshot rfl _)
    fun c row _ hrow hwrites => ?_)
  refine ⟨.saved, .save row hrow hwrites, ?_⟩
  refine .bind (follows_call fun _ => ?_)
  exact follows_status (fun _ => rfl) fun _ => trivial

theorem follows_restore {url : String} {snapshot : ParkSnapshotRow}
    {Q : Unit → AList Row → Phase → Prop} (hQ : Q () ∅ .idle) :
    Follows schema (script slug tenantId)
      (Routes.restoreTenantFromSnapshot cfg slug tenantId url snapshot status actor) ∅ .idle Q
      fun _ _ _ => True := by
  have hconsume : Follows schema (script slug tenantId) (consumeParkSnapshot tenantId actor) ∅
      .idle Q fun _ _ _ => True :=
    follows_consumeParkSnapshot (ignores_script slug tenantId) buffers rfl
      (fun _ _ _ => hQ) fun c row _ hrow hwrites => ⟨.idle, .consume row hrow hwrites, hQ⟩
  have hfinish : Follows schema (script slug tenantId)
      (Routes.finishRestore cfg slug tenantId status actor) ∅ .idle Q fun _ _ _ => True := by
    refine .bind (.whenever (fun _ => ?_) fun _ => hconsume)
    refine .bind (follows_status (fun h => by cases h) fun _ => ?_)
    exact .pure hconsume
  refine .bind (follows_call fun envelope => ?_)
  refine .bind (.whenever (fun _ => ?_) fun _ => hfinish)
  refine .bind (follows_call fun _ => ?_)
  refine .bind (.request fun _ _ _ _ _ _ =>
    ⟨.idle, .quiet (fun _ _ => rfl) (.inl rfl), ?_⟩)
  exact .pure hfinish

variable (tenantId) in
def Waiting (db : AList Row) : Prop :=
  ∃ row, parkSnapshotRow db tenantId = some row ∧ unconsumed row = true

variable (tenantId) in
def Restorable (db : AList Row) : Prop :=
  ∀ tenant : TenantRow, db.lookup (.tenant tenantId) = some tenant → tenant.status = .parked →
    Waiting tenantId db

variable (tenantId) in
def Retires (w : AList Row) : Prop :=
  ∃ row, parkSnapshotRow w tenantId = some row ∧ row.unparkedAt.isSome = true

variable {phase phase' : Phase} {o : Op Row ManagementRequest} {c c' : Scene Row Upstream}

theorem Waiting.congr {db db' : AList Row} (hwaiting : Waiting tenantId db)
    (hsame : db'.lookup (.parkSnapshot tenantId) = db.lookup (.parkSnapshot tenantId)) :
    Waiting tenantId db' := by
  obtain ⟨row, hrow, hunconsumed⟩ := hwaiting
  exact ⟨row, hsame.trans hrow, hunconsumed⟩

theorem Move.named (hmove : Move slug tenantId phase o c phase' c')
    (hnamed : Named slug tenantId c.committed) : Named slug tenantId c'.committed := by
  cases hmove with
  | quiet hcommitted _ => exact hnamed.congr fun id => hcommitted _ trivial
  | save row _ hwrites | consume row _ hwrites =>
    exact hnamed.congr fun id => lookup_committing_insert hwrites (by simp)
  | flip row hid _ _ hwrites => exact hnamed.commit hid hwrites

theorem Move.waiting (hmove : Move slug tenantId phase o c phase' c')
    (hwaiting : Waiting tenantId c.committed) (hkeeps : o = .commit → ¬ Retires tenantId c.writes) :
    Waiting tenantId c'.committed := by
  cases hmove with
  | quiet hcommitted _ => exact hwaiting.congr (hcommitted _ trivial)
  | save row hrow hwrites => exact ⟨row, lookup_committing_self hwrites, hrow⟩
  | flip row _ _ _ hwrites => exact hwaiting.congr (lookup_committing_insert hwrites (by simp))
  | consume row hrow hwrites =>
    refine absurd ⟨row, ?_, hrow⟩ (hkeeps rfl)
    rw [parkSnapshotRow, hwrites, AList.lookup_insert]

theorem Move.restorable (hmove : Move slug tenantId phase o c phase' c')
    (hrestorable : Restorable tenantId c.committed)
    (hsaved : phase = .saved → Waiting tenantId c.committed)
    (hretires : o = .commit → Retires tenantId c.writes →
      ∀ tenant : TenantRow, c.committed.lookup (.tenant tenantId) = some tenant →
        tenant.status ≠ .parked) : Restorable tenantId c'.committed := by
  intro tenant htenant hparked
  cases hmove with
  | quiet hcommitted _ =>
    rw [hcommitted (.tenant tenantId) trivial] at htenant
    exact (hrestorable tenant htenant hparked).congr (hcommitted _ trivial)
  | save row hrow hwrites => exact ⟨row, lookup_committing_self hwrites, hrow⟩
  | flip row _ _ hstatus hwrites =>
    rw [lookup_committing_self hwrites, some.injEq] at htenant
    have hwaiting := hsaved (hstatus (htenant ▸ hparked))
    exact hwaiting.congr (lookup_committing_insert hwrites (by simp))
  | consume row hrow hwrites =>
    rw [lookup_committing_insert hwrites (by simp)] at htenant
    refine absurd hparked (hretires rfl ⟨row, ?_, hrow⟩ tenant htenant)
    rw [parkSnapshotRow, hwrites, AList.lookup_insert]

theorem Move.saved (hmove : Move slug tenantId phase o c .saved c')
    (hsaved : phase = .saved → Waiting tenantId c.saved) : Waiting tenantId c'.saved := by
  cases hmove with
  | quiet _ hkept =>
    have hsame : c'.saved = c.saved := hkept.resolve_right (by simp)
    exact hsame ▸ hsaved rfl
  | save row hrow hwrites =>
    refine ⟨row, ?_, hrow⟩
    rw [parkSnapshotRow, Scene.committing, hwrites, AList.lookup_insert]

theorem Move.waiting_of_saves (hmove : Move slug tenantId .idle o c .saved c') :
    Waiting tenantId c'.committed := by
  cases hmove with
  | save row hrow hwrites => exact ⟨row, lookup_committing_self hwrites, hrow⟩

variable {s t : State} {γ : Nat → Phase} {call : Call}

variable (slug tenantId) in
structure Holds (s : State) (γ : Nat → Phase) : Prop where
  named : Named slug tenantId s.committed
  restorable : Restorable tenantId s.committed
  parking : ∀ sid tx, s.InFlight sid tx → γ sid = .saved →
    Waiting tenantId s.committed ∧ Waiting tenantId tx.saved

variable (tenantId) in
structure Unparked (s : State) : Prop where
  status : ∀ tenant : TenantRow, s.committed.lookup (.tenant tenantId) = some tenant →
    tenant.status ≠ .parked
  flights : ∀ sid tx, s.InFlight sid tx → ¬ Waiting tenantId tx.saved

variable (slug tenantId) in
/-- Lifecycle requests for one tenant, in any interleaving in which the snapshot is only retired while
the tenant is unparked. -/
def retiresUnparked (s : State) : Action Key Call → Prop
  | .start _ call => (call.lifecycle slug).isSome = true
  | .run sid _ => ∀ call next tx, s.sessions sid = some ⟨call, some (.op .commit next), tx⟩ →
      Retires tenantId tx.writes → Unparked tenantId s
  | .crash _ | .tick _ => True

theorem Holds.run {sid : Nat} {call : Call} {next} {answer : o.Result (Except ApiError Json)}
    {tx tx' : Txn Row} {sh' : Shared Row Index Upstream} (hholds : Holds slug tenantId s γ)
    (hretires : ∀ call next tx, s.sessions sid = some ⟨call, some (.op .commit next), tx⟩ →
      Retires tenantId tx.writes → Unparked tenantId s)
    (hsession : s.sessions sid = some ⟨call, some (.op o next), tx⟩)
    (hmove : Move slug tenantId (γ sid) o (.of sid s.toShared tx) phase (.of sid sh' tx')) :
    Holds slug tenantId (s.setSession sid ⟨call, some (next answer), tx'⟩ sh')
      (update γ sid phase) := by
  have hflight : s.InFlight sid tx := ⟨call, o, next, hsession⟩
  have hunparked : o = .commit → Retires tenantId tx.writes → Unparked tenantId s := by
    rintro rfl
    exact hretires call next tx hsession
  refine ⟨hmove.named hholds.named, ?_, fun other tx₂ hother hsaved => ?_⟩
  · refine hmove.restorable hholds.restorable (fun hsaved => (hholds.parking sid tx hflight hsaved).1) ?_
    exact fun hcommit hretired => (hunparked hcommit hretired).status
  · -- a snapshot that some park counts on is not retired
    have hwaiting (other : Nat) (tx₂ : Txn Row) (hflight₂ : s.InFlight other tx₂)
        (hsaved : γ other = .saved) : Waiting tenantId sh'.committed := by
      obtain ⟨hwaiting, hkept⟩ := hholds.parking other tx₂ hflight₂ hsaved
      exact hmove.waiting hwaiting fun hcommit hretired =>
        (hunparked hcommit hretired).flights other tx₂ hflight₂ hkept
    obtain ⟨rfl, rfl, -⟩ | ⟨hne, hflight₂⟩ := hother.cases
    · rw [update_self] at hsaved
      subst hsaved
      refine ⟨?_, hmove.saved fun hsaved => (hholds.parking other tx hflight hsaved).2⟩
      obtain hbefore | hbefore : γ other = .saved ∨ γ other = .idle := by
        cases γ other <;> simp
      · exact hwaiting other tx hflight hbefore
      · rw [hbefore] at hmove
        exact hmove.waiting_of_saves
    · rw [update_of_ne hne] at hsaved
      exact ⟨hwaiting other tx₂ hflight₂ hsaved, (hholds.parking other tx₂ hflight₂ hsaved).2⟩

theorem keeps_holds : (script slug tenantId).Keeps (server cfg) (retiresUnparked slug tenantId)
    (fun _ _ => .idle) fun _ => Holds slug tenantId where
  start _ s γ sid call t hholds hok _ hnew ht := by
    subst ht
    refine ⟨hholds.named, hholds.restorable, fun other tx hother hsaved => ?_⟩
    obtain ⟨rfl, -⟩ | ⟨hne, hflight⟩ := hother.cases
    · simp at hsaved
    · rw [update_of_ne hne] at hsaved
      exact hholds.parking other tx hflight hsaved
  known _ s γ sid call o next tx hholds _ := hholds.named
  run _ s γ sid choice call o next tx answer sh' tx' phase t hholds hok _ hsession _ hmove ht :=
    ht ▸ hholds.run hok hsession hmove
  crash _ s γ sid call p tx t hholds _ _ _ ht := by
    subst ht
    exact ⟨hholds.named, hholds.restorable, fun other tx hother hsaved =>
      hholds.parking other tx hother.before_crash hsaved⟩
  tick _ s γ elapsed t hholds _ _ ht := ht ▸ ⟨hholds.named, hholds.restorable, hholds.parking⟩

theorem follows_lifecycle (hcall : (call.lifecycle slug).isSome = true) :
    Follows schema (script slug tenantId) (handle cfg call) ∅ .idle (fun _ _ _ => True)
      fun _ _ _ => True := by
  cases call with
  | park raw actor reason =>
    exact .map (follows_park (by simpa [Call.lifecycle] using hcall))
  | unpark raw actor =>
    exact .map (follows_unparkTenant (ignores_script slug tenantId) (fun _ _ hnamed => hnamed)
      (fun _ _ _ _ _ _ _ _ _ _ _ => follows_restore ⟨rfl, trivial⟩) (by simpa [Call.lifecycle] using hcall))
  | suspend raw | resume raw =>
    have hslug : Validation.slug raw = .ok slug := by simpa [Call.lifecycle] using hcall
    refine .map (.bind (.required hslug ?_))
    exact follows_status (fun h => by cases h) fun _ => trivial
  | webhook provided req =>
    obtain ⟨hevent, hslug⟩ : BillingEvent.parse req.event = some .paymentSucceeded ∧
        Validation.slug req.tenantSlug = .ok slug := by simpa [Call.lifecycle] using hcall
    exact .map (follows_paymentWebhook (R := fun _ => True) (ignores_script slug tenantId) (fun _ _ hnamed => hnamed)
      (fun _ _ _ _ _ _ _ _ _ _ _ => follows_restore ⟨rfl, trivial⟩) rfl hevent hslug)
  | _ => simp [Call.lifecycle] at hcall

end Unparkable

open Unparkable in
/-- **When a parked tenant can be unparked.** Lifecycle requests of a tenant run in any
interleaving, with any deaths. If a snapshot is only ever retired while the stored status is not
parked and no park is between saving its snapshot and moving the status, a parked tenant always has
an unconsumed snapshot. -/
theorem parked_restorable {cfg : Config} {slug : String} {tenantId : Uuid} {s t : State}
    (hrest : s.AtRest) (hnamed : Named slug tenantId s.committed)
    (hstart : Unparkable.Restorable tenantId s.committed)
    (hreach : Reaches (server cfg) (retiresUnparked slug tenantId) s t) :
    Unparkable.Restorable tenantId t.committed := by
  have hcalls : ∀ s sid call, retiresUnparked slug tenantId s (.start sid call) →
      ((server cfg).handler call).Follows (server cfg).schema (script slug tenantId) ∅ .idle
        fun _ _ _ => True :=
    fun _ _ _ hcall => follows_run (follows_lifecycle hcall)
  have hinit : Holds slug tenantId s fun _ => .idle := by
    refine ⟨hnamed, hstart, fun sid tx hflight => ?_⟩
    obtain ⟨call, o, next, hsession⟩ := hflight
    rw [hrest.1 sid] at hsession
    cases hsession
  obtain ⟨γ, hholds, -⟩ := keeps_holds.reaches hcalls ⟨_, hinit, .of_atRest hrest⟩ hreach
  exact hholds.restorable

def demoParkUnpark (turns : List (Nat × Nat)) : List (Action Key Call) :=
  .start 0 (.park "acme" "operator" none) :: .start 1 (.unpark "acme" "operator") ::
    turns.flatMap fun turn => List.replicate turn.2 (.run turn.1 ⟨[], .answered⟩)

def demoRetires (s : State) : Action Key Call → Bool
  | .run sid _ =>
    match s.sessions sid with
    | some ⟨_, some (.op .commit _), tx⟩ =>
      !((parkSnapshotRow tx.writes 1).any fun row => row.unparkedAt.isSome) ||
        (((s.committed.lookup (.tenant 1)).all fun tenant : TenantRow => tenant.status ≠ .parked) &&
          [0, 1].all fun other => (s.sessions other).all fun σ =>
            !((parkSnapshotRow σ.txn.saved 1).any unconsumed) ||
              match σ.prog with
              | some (.op _ _) => false
              | _ => true)
    | _ => true
  | _ => true

open Unparkable in
theorem retiresUnparked_of_demo {s t : State} {turns : List (Nat × Nat)}
    (hrest : s.AtRest)
    (hschedule : checkedSchedule (server demoConfig) demoRetires s (demoParkUnpark turns) = some t) :
    Reaches (server demoConfig) (retiresUnparked "acme" 1) s t := by
  refine (reaches_of_checkedSchedule_mem hschedule).mono fun u a hok => ?_
  obtain ⟨hcheck, hmem, hunstarted⟩ := hok
  cases a with
  | start sid call =>
    simp only [demoParkUnpark, mem_cons, Action.start.injEq, mem_flatMap,
      mem_replicate, reduceCtorEq, and_false, exists_const, or_false] at hmem
    have hslug : Validation.slug "acme" = .ok "acme" := by decide
    obtain ⟨-, rfl⟩ | ⟨-, rfl⟩ := hmem <;> simp [retiresUnparked, Call.lifecycle, hslug]
  | crash sid | tick elapsed => trivial
  | run sid choice =>
    rintro call next tx hsession ⟨row, hrow, hretired⟩
    have hchecked := hcheck
    simp only [demoRetires, hsession, hrow, any_some, hretired, Bool.not_true, Bool.false_or,
      Bool.and_eq_true] at hchecked
    obtain ⟨hstatus, hflights⟩ := hchecked
    refine ⟨fun tenant htenant => ?_, fun other tx' hflight hwaiting => ?_⟩
    · rw [htenant] at hstatus
      simpa using hstatus
    · obtain ⟨call', o, next', hother⟩ := hflight
      obtain ⟨row', hrow', hunconsumed⟩ := hwaiting
      have hmember : other ∈ [0, 1] := by
        by_contra hne
        have hnone : u.sessions other = none := by
          apply hunstarted other (hrest.1 other)
          intro call hstart
          simp only [demoParkUnpark, mem_cons, Action.start.injEq, mem_flatMap,
            mem_replicate, reduceCtorEq, and_false, exists_const, or_false] at hstart
          obtain ⟨rfl, -⟩ | ⟨rfl, -⟩ := hstart <;> simp at hne
        rw [hnone] at hother
        cases hother
      have hdone := all_eq_true.mp hflights other hmember
      rw [hother] at hdone
      simp [hrow', hunconsumed] at hdone

def demoParked (t : State) : Option (TenantStatus × Bool) :=
  (lifecycleOf "acme" t).map fun l => (l.status, l.waiting)

open Unparkable in
theorem parked_restorable_after_park :
    ∃ t : State, Reaches (server demoConfig) (retiresUnparked "acme" 1) demoState t ∧
      (t.committed.lookup (.tenant 1)).map (fun tenant : TenantRow => tenant.status) = some .parked ∧
      Waiting 1 t.committed := by
  have hrun : (checkedSchedule (server demoConfig) demoRetires demoState
      (demoParkUnpark [(0, 5), (1, 3), (0, 17)])).map
      (fun t => (t.committed.lookup (.tenant 1)).map fun tenant : TenantRow => tenant.status) =
      some (some .parked) := by
    decide
  obtain ⟨t, hschedule, hparked⟩ := map_eq_some_iff.mp hrun
  have hreach := retiresUnparked_of_demo (demo_booted demoConfig).atRest hschedule
  obtain ⟨tenant, htenant, hstatus⟩ := map_eq_some_iff.mp hparked
  refine ⟨t, hreach, hparked, parked_restorable (demo_booted demoConfig).atRest demo_named ?_ hreach
    tenant htenant hstatus⟩
  intro tenant htenant hstatus
  obtain rfl : demoTenant = tenant := some.inj htenant
  cases hstatus

/-- An unpark retires the snapshot a park has just saved: both succeed, and the parked tenant has
nothing to restore. -/
theorem parked_without_snapshot :
    ∃ t : State,
      runSchedule (server demoConfig) demoState (demoParkUnpark [(0, 11), (1, 13), (0, 11)]) = some t ∧
      (t.returned 0).map Except.isOk = some true ∧ (t.returned 1).map Except.isOk = some true ∧
      demoParked t = some (.parked, false) := by
  have hrun : (runSchedule (server demoConfig) demoState
      (demoParkUnpark [(0, 11), (1, 13), (0, 11)])).map
      (fun t => ((t.returned 0).map Except.isOk, (t.returned 1).map Except.isOk, demoParked t)) =
      some (some true, some true, some (.parked, false)) := by
    decide
  obtain ⟨t, hschedule, heq⟩ := map_eq_some_iff.mp hrun
  simp only [Prod.mk.injEq] at heq
  exact ⟨t, hschedule, heq⟩

end ControlPlane
