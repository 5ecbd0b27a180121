import ControlPlane.Proof.Jobs

/-!
# The billing row

Webhook events move the billing machine from the state the call read, which is the stored one only
if there was a row to lock; and a start reopens even the refunded subscription it names.
-/

namespace ControlPlane

open ReadCommitted Store Option

variable {cfg : Config} {s t u w : State} {a : Action Key Call} {tenantId : Uuid}

section Input

variable (req : Routes.BillingWebhookRequest) (event : BillingEvent)

@[simp] theorem input_event : (req.input event).event = event := rfl
@[simp] theorem input_providerSubscriptionId :
    (req.input event).providerSubscriptionId = req.providerSubscriptionId := rfl
@[simp] theorem input_subscriptionStartedAt :
    (req.input event).subscriptionStartedAt = req.subscriptionStartedAt := rfl

end Input

def Call.billing : Call → Option (BillingEvent × Routes.BillingWebhookRequest)
  | .webhook _ req => (BillingEvent.parse req.event).map (·, req)
  | _ => none

def Call.starts (call : Call) : Bool := call.billing.any (·.1 = .subscriptionStarted)

def Call.startsAfresh (call : Call) (row : TenantBillingRow) : Bool :=
  call.billing.any fun (event, req) =>
    event = .subscriptionStarted && namesOther (req.input event) row

/-- What the event of a call that writes a refunded row has to be: a refund, a start of another
subscription, or any event but a start if the row was there when the call read it. -/
def Call.sparesRefund (call : Call) (held : Bool) (row : TenantBillingRow) : Bool :=
  call.billing.any (·.1 = .subscriptionRefunded) || call.startsAfresh row || held && !call.starts

def sparesRefund (tenantId : Uuid) (s : State) : Action Key Call → Bool
  | .run sid _ =>
    match s.sessions sid with
    | some ⟨call, some (.op o _), tx⟩ =>
      o.target ≠ some (.billing tenantId) ||
        ((billingRow (visible s.toShared tx) tenantId).filter (·.state = .refunded)).all
          (call.sparesRefund (s.locks (.billing tenantId) = some sid))
    | _ => true
  | _ => true

def Call.sparesRefundOf (call : Call) (tenantId : Uuid) (access : Access) :
    (key : Key) → Option (Row key) → Prop
  | .billing id, some row => id = tenantId → row.state = .refunded →
      call.sparesRefund (access = .upsert true) row = true
  | _, _ => True

def refundWrites (cfg : Config) (tenantId : Uuid) (call : Call) : Writes Row :=
  fun readings access key old new => callWrites cfg call readings access key old new ∧
    call.sparesRefundOf tenantId access key old

def Spared (call : Call) (old : Option TenantBillingRow) (new : TenantBillingRow) : Prop :=
  ∀ row, old = some row → row.state = .refunded → call.startsAfresh row = true ∨
    new.state = .refunded ∧ call.starts = false

variable {event : BillingEvent}

theorem apply_refunded {inTrial : Bool} {state : BillingState}
    (hstate : BillingState.apply (some .refunded) event inTrial = some state) :
    event = .subscriptionStarted ∨ state = .refunded := by
  cases event <;> simp_all [BillingState.apply]

variable {call : Call} {row : TenantBillingRow}

theorem starts_of_startsAfresh (hafresh : call.startsAfresh row = true) : call.starts = true := by
  unfold Call.startsAfresh at hafresh
  unfold Call.starts
  cases hbilling : call.billing with
  | none => simp [hbilling] at hafresh
  | some event =>
    simp only [hbilling, any_some, Bool.and_eq_true, decide_eq_true_eq] at hafresh ⊢
    exact hafresh.1

variable {readings : List Instant} {old : Option TenantBillingRow} {new : TenantBillingRow}
  {access : Access}

theorem spared_of_write
    (hwrite : refundWrites cfg tenantId call readings access (.billing tenantId) old new) :
    Spared call old new := by
  rintro row rfl hrefunded
  obtain ⟨hwrite, hspares⟩ := hwrite
  have hspares := hspares rfl hrefunded
  cases hwrite with
  | event provided req event hcall hevent held _ previous hprevious inTrial state hstate utc now =>
    have hbilling : call.billing = some (event, req) := by simp [hcall, Call.billing, hevent]
    simp only [Call.sparesRefund, Call.starts, hbilling, any_some, Bool.or_eq_true,
      Bool.and_eq_true, decide_eq_true_eq, Access.upsert.injEq, Bool.not_eq_true',
      decide_eq_false_iff_not] at hspares
    have hstarts : call.starts = decide (event = .subscriptionStarted) := by
      simp [Call.starts, hbilling]
    obtain (rfl | hafresh) | ⟨rfl, hnotStart⟩ := hspares
    · refine Or.inr ⟨?_, by simp [hstarts]⟩
      simpa [BillingState.apply, mergeBilling] using hstate.symm
    · exact Or.inl hafresh
    · obtain rfl : previous = some .refunded := by simpa [hrefunded] using hprevious
      obtain rfl | rfl := apply_refunded hstate
      · exact absurd rfl hnotStart
      · exact Or.inr ⟨rfl, by simpa [hstarts] using hnotStart⟩

theorem spared_of_chain
    (hchain : Chain (refundWrites cfg tenantId call) readings (.billing tenantId) old new) :
    Spared call old new := by
  refine hchain.relates (fun _ _ _ _ _ => spared_of_write) fun old mid new hfirst hsecond => ?_
  intro row hrow hrefunded
  obtain hafresh | ⟨hmid, hnotStart⟩ := hfirst row hrow hrefunded
  · exact Or.inl hafresh
  · obtain hafresh | hkept := hsecond mid rfl hmid
    · simp [starts_of_startsAfresh hafresh] at hnotStart
    · exact Or.inr hkept

structure RefundGuarded (cfg : Config) (tenantId : Uuid) (t : State) : Prop where
  holds : (protocol cfg).Holds t
  linked : ∀ sid σ, t.sessions sid = some σ →
    LinkedTxn (refundWrites cfg tenantId σ.call) t.toShared σ.txn

theorem refundGuarded_of_booted (hboot : Booted cfg s) : RefundGuarded cfg tenantId s where
  holds := holds_of_booted hboot
  linked sid σ hσ := by rw [hboot.atRest.1 sid] at hσ; simp at hσ

theorem refundGuarded_step (hguarded : RefundGuarded cfg tenantId t)
    (hok : sparesRefund tenantId t a = true) (hstep : step (server cfg) t a = some u) :
    RefundGuarded cfg tenantId u where
  holds := hguarded.holds.step protocol_metBy hstep
  linked := by
    refine Protocol.linked_step hguarded.holds hguarded.linked ?_ hstep
    intro sid choice call o next tx access key row ha hsession htarget hfits hwrite
    refine ⟨hwrite, ?_⟩
    cases key with
    | billing id =>
      cases hold : (visible t.toShared tx).lookup (.billing id) with
      | none => trivial
      | some old =>
        rintro rfl hrefunded
        subst ha
        simp only [sparesRefund, hsession, htarget, billingRow, hold] at hok
        -- an upsert held the row exactly if the session had locked it before
        obtain ⟨held, rfl⟩ : ∃ held, access = .upsert held := by cases hwrite; exact ⟨_, rfl⟩
        have hheld : held = decide (t.locks (.billing id) = some sid) := hfits
        simpa [hheld, hrefunded] using hok
    | _ => trivial

/-- **Refunded until a fresh start.** In a run whose steps all spare refunded rows, a refunded
billing row stays refunded until a start of another subscription commits. -/
theorem refunded_until_fresh_start (hboot : Booted cfg s)
    (hreach : Reaches (server cfg) (fun s a => sparesRefund tenantId s a = true) s t)
    (hstep : step (server cfg) t a = some u) {row : TenantBillingRow}
    (hrow : t.committed.lookup (.billing tenantId) = some row) (hrefunded : row.state = .refunded) :
    ∃ row' : TenantBillingRow, u.committed.lookup (.billing tenantId) = some row' ∧
      (row'.state = .refunded ∨ ∃ sid choice σ, a = .run sid choice ∧ t.sessions sid = some σ ∧
        σ.call.startsAfresh row = true) := by
  have hguarded : RefundGuarded cfg tenantId t :=
    hreach.invariant (fun _ _ _ hg hok hact => refundGuarded_step hg hok hact)
      (refundGuarded_of_booted hboot)
  by_cases hchange : u.committed.lookup (.billing tenantId) = t.committed.lookup (.billing tenantId)
  · exact ⟨row, hchange.trans hrow, Or.inl hrefunded⟩
  · obtain ⟨sid, choice, call, next, tx, new, ha, hbefore, -, hwritten, hnow, -⟩ :=
      Protocol.changed hstep hguarded.holds hchange
    have hspared := spared_of_chain (hguarded.linked sid _ hbefore _ new hwritten)
    refine ⟨new, hnow, (hspared row hrow hrefunded).symm.imp (fun h => h.1) fun hafresh => ?_⟩
    exact ⟨sid, choice, _, ha, hbefore, hafresh⟩

def demoWebhook (event : String) (subscription : String) (startedAt : Option Instant) : Call :=
  .webhook "secret"
    { tenantSlug := "acme", event := event, provider := none, providerCustomerId := none,
      providerSubscriptionId := some subscription, subscriptionStartedAt := startedAt,
      trialEndsAt := none, currentPeriodEndsAt := none }

def refundSchedule (subscription : String) : List (Action Key Call) :=
  alone 0 (demoWebhook "subscription_started" "sub_1" (some 5)) 11 ++
    alone 1 (demoWebhook "subscription_refunded" "sub_1" none) 8 ++
    alone 2 (demoWebhook "subscription_started" subscription (some 5)) 7

/-- The billing state of the tenant before and after the next step of session 2, and whether its
call starts a subscription other than the stored one. -/
def billingStep (t : State) : Option (BillingState × BillingState × Bool) := do
  let u ← step (server demoConfig) t (.run 2 ⟨[], .answered⟩)
  let row ← billingRow t.committed 1
  let row' ← billingRow u.committed 1
  let σ ← t.sessions 2
  some (row.state, row'.state, σ.call.startsAfresh row)

theorem billingStep_eq_some {t : State} {before after : BillingState} {fresh : Bool}
    (hbilling : billingStep t = some (before, after, fresh)) :
    ∃ u σ, ∃ row row' : TenantBillingRow,
      step (server demoConfig) t (.run 2 ⟨[], .answered⟩) = some u ∧ t.sessions 2 = some σ ∧
      t.committed.lookup (.billing 1) = some row ∧ u.committed.lookup (.billing 1) = some row' ∧
      row.state = before ∧ row'.state = after ∧ σ.call.startsAfresh row = fresh := by
  simp only [billingStep, bind_eq_bind, bind_eq_some_iff, some.injEq,
    Prod.mk.injEq] at hbilling
  obtain ⟨u, hstep, row, hrow, row', hrow', σ, hσ, hbefore, hafter, hfresh⟩ := hbilling
  exact ⟨u, σ, row, row', hstep, hσ, hrow, hrow', hbefore, hafter, hfresh⟩

theorem refunded_until_fresh_start_resubscribed :
    ∃ (t u : State) (row row' : TenantBillingRow),
      step (server demoConfig) t (.run 2 ⟨[], .answered⟩) = some u ∧
      t.committed.lookup (.billing 1) = some row ∧ row.state = .refunded ∧
      u.committed.lookup (.billing 1) = some row' ∧ (row'.state = .refunded ∨
        ∃ σ, t.sessions 2 = some σ ∧ σ.call.startsAfresh row = true) := by
  have hrun : (checkedSchedule (server demoConfig) (sparesRefund 1) demoState
      (refundSchedule "sub_2")).bind billingStep = some (.refunded, .active, true) := by
    decide
  obtain ⟨t, hschedule, hbilling⟩ := bind_eq_some_iff.mp hrun
  obtain ⟨u, σ, row, -, hstep, -, hrow, -, hrefunded, -⟩ := billingStep_eq_some hbilling
  obtain ⟨row', hrow', hkept⟩ := refunded_until_fresh_start (demo_booted demoConfig)
    (reaches_of_checkedSchedule hschedule) hstep hrow hrefunded
  refine ⟨t, u, row, row', hstep, hrow, hrefunded, hrow', hkept.imp_right ?_⟩
  rintro ⟨sid, choice, σ, ha, hσ, hafresh⟩
  obtain ⟨rfl, -⟩ := Action.run.inj ha
  exact ⟨σ, hσ, hafresh⟩

/-- A redelivered start of the refunded subscription reopens it. -/
theorem refunded_reopened_by_redelivery :
    ∃ (t u : State) (row row' : TenantBillingRow),
      Reaches (server demoConfig) anyStep demoState t ∧
      step (server demoConfig) t (.run 2 ⟨[], .answered⟩) = some u ∧
      t.committed.lookup (.billing 1) = some row ∧ row.state = .refunded ∧
      u.committed.lookup (.billing 1) = some row' ∧ row'.state = .active ∧
      ∃ σ, t.sessions 2 = some σ ∧ σ.call.startsAfresh row = false := by
  have hrun : (runSchedule (server demoConfig) demoState (refundSchedule "sub_1")).bind
      billingStep = some (.refunded, .active, false) := by decide
  obtain ⟨t, hschedule, hbilling⟩ := bind_eq_some_iff.mp hrun
  obtain ⟨u, σ, row, row', hstep, hσ, hrow, hrow', hbefore, hafter, hfresh⟩ :=
    billingStep_eq_some hbilling
  exact ⟨t, u, row, row', reaches_of_runSchedule hschedule, hstep, hrow, hbefore, hrow', hafter,
    σ, hσ, hfresh⟩

/-- The start the row records after an event, from the version the event found. -/
def recordedStart (input : BillingEventInput) (utc : Instant) :
    Option TenantBillingRow → Instant
  | none => proposedStart input utc
  | some row =>
    if input.event = .subscriptionStarted ∧ namesOther input row then proposedStart input utc
    else row.subscriptionStartedAt

def Recorded (input : BillingEventInput) (old : Option TenantBillingRow) (new : TenantBillingRow) :
    Prop :=
  (∃ utc, new.subscriptionStartedAt = recordedStart input utc old) ∧
    new.providerSubscriptionId =
      input.providerSubscriptionId.or (old.bind (·.providerSubscriptionId))

variable {req : Routes.BillingWebhookRequest} {provided : String}

theorem recorded_of_write (hevent : BillingEvent.parse req.event = some event)
    (hwrite : BillingWrite (.webhook provided req) tenantId access old new) :
    Recorded (req.input event) old new := by
  cases hwrite with
  | event provided' req' event' hcall hevent' held _ previous hprevious inTrial state hstate utc now =>
    obtain ⟨-, rfl⟩ := hcall
    rw [hevent, some.injEq] at hevent'
    subst hevent'
    cases old with
    | none => exact ⟨⟨utc, rfl⟩, by simp [newBilling]⟩
    | some row => exact ⟨⟨utc, rfl⟩, rfl⟩

theorem recordedStart_again {input : BillingEventInput} {mid : TenantBillingRow}
    (hmid : Recorded input old mid) (utc : Instant) :
    recordedStart input utc (some mid) = mid.subscriptionStartedAt := by
  have hsame : namesOther input mid = false := by
    cases hid : input.providerSubscriptionId with
    | none => simp [namesOther, hid]
    | some subscription => simp [namesOther, hid, hmid.2]
  simp [recordedStart, hsame]

theorem recorded_of_chain (hevent : BillingEvent.parse req.event = some event)
    (hchain : Chain (callWrites cfg (.webhook provided req)) readings (.billing tenantId) old new) :
    Recorded (req.input event) old new := by
  refine hchain.relates (R := Recorded (req.input event))
    (fun _ _ _ _ _ hwrite => recorded_of_write hevent hwrite) ?_
  rintro old mid new hfirst ⟨⟨utc, hstart⟩, hid⟩
  rw [recordedStart_again hfirst] at hstart
  refine ⟨?_, ?_⟩
  · obtain ⟨utc', hstart'⟩ := hfirst.1
    exact ⟨utc', hstart.trans hstart'⟩
  · rw [hid, bind_some, hfirst.2]
    cases (req.input event).providerSubscriptionId <;> simp

theorem billing_of_chain (hchain : Chain (callWrites cfg call) readings (.billing tenantId) old new) :
    ∃ event req, call.billing = some (event, req) ∧ Recorded (req.input event) old new := by
  obtain ⟨_, _, _, -, hwrite⟩ := hchain.first
  cases hwrite with
  | event provided req event hcall hevent =>
    subst hcall
    exact ⟨event, req, by simp [Call.billing, hevent], recorded_of_chain hevent hchain⟩

def billingCommit (tenantId : Uuid) (s : State) (a : Action Key Call) :
    Option (BillingEvent × Routes.BillingWebhookRequest) :=
  (Protocol.committing (.billing tenantId) s a).bind Call.billing

theorem committed_of_billingCommit (hholds : (protocol cfg).Holds t)
    (hstep : step (server cfg) t a = some u)
    (hcommit : billingCommit tenantId t a = some (event, req)) :
    ∃ new : TenantBillingRow, u.committed.lookup (.billing tenantId) = some new ∧
      Recorded (req.input event) (t.committed.lookup (.billing tenantId)) new := by
  obtain ⟨call, hcall, hbilling⟩ := bind_eq_some_iff.mp hcommit
  obtain ⟨new, readings, hnew, hchain⟩ := Protocol.chain_of_committing hstep hholds hcall
  obtain ⟨event', req', hbilling', hrecorded⟩ := billing_of_chain hchain
  rw [hbilling, some.injEq, Prod.mk.injEq] at hbilling'
  obtain ⟨rfl, rfl⟩ := hbilling'
  exact ⟨new, hnew, hrecorded⟩

theorem lookup_of_no_billingCommit (hholds : (protocol cfg).Holds t)
    (hstep : step (server cfg) t a = some u) (hnone : billingCommit tenantId t a = none) :
    u.committed.lookup (.billing tenantId) = t.committed.lookup (.billing tenantId) := by
  cases hcall : Protocol.committing (.billing tenantId) t a with
  | none => exact Protocol.lookup_of_not_committing hstep hholds hcall
  | some call =>
    obtain ⟨new, readings, -, hchain⟩ := Protocol.chain_of_committing hstep hholds hcall
    obtain ⟨event, req, hbilling, -⟩ := billing_of_chain hchain
    simp [billingCommit, hcall, hbilling] at hnone

/-- The step commits no start that names a subscription other than the stored one, or the start it
carries is the recorded one. -/
def keepsStart (tenantId : Uuid) (s : State) (a : Action Key Call) : Bool :=
  match billingCommit tenantId s a, billingRow s.committed tenantId with
  | some (.subscriptionStarted, req), some row =>
    !namesOther (req.input .subscriptionStarted) row ||
      req.subscriptionStartedAt = some row.subscriptionStartedAt
  | _, _ => true

def carriesStart (tenantId : Uuid) (s : State) (a : Action Key Call) : Prop :=
  ∀ req, billingCommit tenantId s a = some (.subscriptionStarted, req) →
    req.subscriptionStartedAt.isSome = true

/-- Where every start says when its subscription started, one step keeps the recorded start exactly
under the condition. -/
theorem start_kept_iff (hholds : (protocol cfg).Holds t) (hstep : step (server cfg) t a = some u)
    (hcarries : carriesStart tenantId t a)
    (hrow : t.committed.lookup (.billing tenantId) = some row) :
    ∃ row' : TenantBillingRow, u.committed.lookup (.billing tenantId) = some row' ∧
      (row'.subscriptionStartedAt = row.subscriptionStartedAt ↔
        keepsStart tenantId t a = true) := by
  cases hcommit : billingCommit tenantId t a with
  | none =>
    exact ⟨row, (lookup_of_no_billingCommit hholds hstep hcommit).trans hrow, by simp [keepsStart, hcommit]⟩
  | some committed =>
    obtain ⟨event, req⟩ := committed
    obtain ⟨row', hrow', ⟨utc, hstart⟩, -⟩ := committed_of_billingCommit hholds hstep hcommit
    refine ⟨row', hrow', ?_⟩
    rw [hrow] at hstart
    rw [hstart, keepsStart, hcommit, billingRow, hrow]
    cases event with
    | subscriptionStarted =>
      -- only a start of another subscription is recorded, as the one it carries
      obtain ⟨startedAt, hstartedAt⟩ := isSome_iff_exists.mp (hcarries req hcommit)
      cases hother : namesOther (req.input .subscriptionStarted) row with
      | false => simp [recordedStart, hother]
      | true => simp [recordedStart, hother, proposedStart, hstartedAt]
    | _ => simp [recordedStart]

/-- **The recorded start of a subscription.** A start that commits is recorded exactly if no row of
its subscription with another start was there. In runs that commit no start of another subscription
with another start it then stays; a commit outside that condition moves it. -/
theorem recorded_start_iff (hboot : Booted cfg s) (hreach : Reaches (server cfg) anyStep s t)
    (hstep : step (server cfg) t a = some u) {req : Routes.BillingWebhookRequest}
    (hcommit : billingCommit tenantId t a = some (.subscriptionStarted, req))
    {subscription : String} (hid : req.providerSubscriptionId = some subscription)
    {startedAt : Instant} (hstart : req.subscriptionStartedAt = some startedAt) :
    ∃ row : TenantBillingRow, u.committed.lookup (.billing tenantId) = some row ∧
      (row.subscriptionStartedAt = startedAt ↔
        ∀ old : TenantBillingRow, t.committed.lookup (.billing tenantId) = some old →
          old.providerSubscriptionId = some subscription →
          old.subscriptionStartedAt = startedAt) ∧
      ∀ v, Reaches (server cfg)
          (fun s a => carriesStart tenantId s a ∧ keepsStart tenantId s a = true) u v →
        ∃ row' : TenantBillingRow, v.committed.lookup (.billing tenantId) = some row' ∧
          row'.subscriptionStartedAt = row.subscriptionStartedAt ∧
          ∀ a' w, step (server cfg) v a' = some w → carriesStart tenantId v a' →
            ∃ row'' : TenantBillingRow, w.committed.lookup (.billing tenantId) = some row'' ∧
              (row''.subscriptionStartedAt = row.subscriptionStartedAt ↔
                keepsStart tenantId v a' = true) := by
  have hholds := holds_of_reaches hboot hreach
  obtain ⟨row, hrow, ⟨utc, hrecorded⟩, -⟩ := committed_of_billingCommit hholds hstep hcommit
  refine ⟨row, hrow, ?_, fun v hreach' => ?_⟩
  · have hproposed : proposedStart (req.input .subscriptionStarted) utc = startedAt := by
      simp [proposedStart, hstart]
    rw [hrecorded]
    cases hold : t.committed.lookup (.billing tenantId) with
    | none => simp [recordedStart, hproposed]
    | some old =>
      have hnames : namesOther (req.input .subscriptionStarted) old =
          decide (old.providerSubscriptionId ≠ some subscription) := by
        simp [namesOther, hid]
      by_cases hsame : old.providerSubscriptionId = some subscription
      · simp [recordedStart, hnames, hsame]
      · simp [recordedStart, hnames, hsame, hproposed]
  · have hinv := hreach'.invariant (I := fun v => (protocol cfg).Holds v ∧
      ∃ row' : TenantBillingRow, v.committed.lookup (.billing tenantId) = some row' ∧
        row'.subscriptionStartedAt = row.subscriptionStartedAt) ?_
        ⟨hholds.step protocol_metBy hstep, row, hrow, rfl⟩
    · obtain ⟨hholds', row', hrow', hsame⟩ := hinv
      refine ⟨row', hrow', hsame, fun a' w hstep' hcarries => ?_⟩
      rw [← hsame]
      exact start_kept_iff hholds' hstep' hcarries hrow'
    · rintro v w a' ⟨hholds', row', hrow', hsame⟩ ⟨hcarries, hkeeps⟩ hstep'
      obtain ⟨row'', hrow'', hiff⟩ := start_kept_iff hholds' hstep' hcarries hrow'
      exact ⟨hholds'.step protocol_metBy hstep', row'', hrow'', (hiff.mpr hkeeps).trans hsame⟩

def demoStart (subscription : String) (startedAt : Instant) : Call :=
  demoWebhook "subscription_started" subscription (some startedAt)

def demoRecorded (s : State) : Option (Option String × Instant) :=
  (billingRow s.committed 1).map fun row => (row.providerSubscriptionId, row.subscriptionStartedAt)

theorem recorded_start_iff_first :
    ∃ (u : State) (row : TenantBillingRow), u.committed.lookup (.billing 1) = some row ∧
      row.subscriptionStartedAt = 5 := by
  have hrun : (runSchedule (server demoConfig) demoState (alone 0 (demoStart "sub_1" 5) 7)).bind
      (fun t => (step (server demoConfig) t (.run 0 ⟨[], .answered⟩)).map fun _ =>
        (billingCommit 1 t (.run 0 ⟨[], .answered⟩), (billingRow t.committed 1).isNone)) =
      some ((demoStart "sub_1" 5).billing, true) := by decide
  obtain ⟨t, hschedule, hmap⟩ := bind_eq_some_iff.mp hrun
  obtain ⟨u, hstep, heq⟩ := map_eq_some_iff.mp hmap
  simp only [Prod.mk.injEq, isNone_iff_eq_none] at heq
  obtain ⟨row, hrow, hiff, -⟩ := recorded_start_iff (demo_booted demoConfig)
    (reaches_of_runSchedule hschedule) hstep heq.1 (show _ = some "sub_1" from rfl)
    (show _ = some 5 from rfl)
  refine ⟨u, row, hrow, hiff.mpr fun old hold => ?_⟩
  rw [show t.committed.lookup (.billing 1) = none from heq.2] at hold
  simp at hold

/-- A redelivered start of an older subscription takes the place of the newest one's. -/
theorem recorded_start_moved_by_older :
    ∃ t u : State, Reaches (server demoConfig) anyStep demoState t ∧
      Reaches (server demoConfig) anyStep t u ∧ demoRecorded t = some (some "sub_2", 9) ∧
      demoRecorded u = some (some "sub_1", 5) := by
  have hrun : (runSchedule (server demoConfig) demoState
      (alone 0 (demoStart "sub_1" 5) 11 ++ alone 1 (demoStart "sub_2" 9) 11)).bind (fun t =>
        (runSchedule (server demoConfig) t (alone 2 (demoStart "sub_1" 5) 11)).map fun u =>
          (demoRecorded t, demoRecorded u)) =
      some (some (some "sub_2", 9), some (some "sub_1", 5)) := by decide
  obtain ⟨t, hschedule, hmap⟩ := bind_eq_some_iff.mp hrun
  obtain ⟨u, hschedule', heq⟩ := map_eq_some_iff.mp hmap
  simp only [Prod.mk.injEq] at heq
  exact ⟨t, u, reaches_of_runSchedule hschedule, reaches_of_runSchedule hschedule', heq.1, heq.2⟩

end ControlPlane
