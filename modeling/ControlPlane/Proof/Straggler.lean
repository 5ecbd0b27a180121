import ControlPlane.Proof.Parking

/-!
# Payments for refunded tenants

The billing machine leaves a refunded tenant refunded when a payment comes late; the route restores
the tenant all the same if there is something to restore.
-/

namespace ControlPlane

open ReadCommitted ReadCommitted.Handler Store Option

variable {cfg : Config} {db : AList Row} {up : Upstream} {slug : String} {tenant : TenantRow}

def managementUrl (db : AList Row) (tenantId : Uuid) : Option String :=
  let finished := (jobsOf db).filter fun job =>
    job.tenantId = tenantId && job.status = .succeeded && (job.result.bind (·.localApiUrl)).isSome
  let latest := finished.insertionSort fun a b => finishedLater a b = true
  latest.head?.bind fun job => job.result.bind (·.localApiUrl)

/-- A payment finds something to restore: a snapshot that waits, of a tenant that is parked or active,
and the service to restore it to. -/
def Restorable (db : AList Row) (tenant : TenantRow) : Prop :=
  (tenant.status = .parked ∨ tenant.status = .active) ∧
    (parkSnapshotRow db tenant.id).any unconsumed = true ∧ (managementUrl db tenant.id).isSome = true

/-- The tenant has the status, the growth envelope and the park snapshot it had. -/
structure Unrevived (tenant : TenantRow) (db : AList Row) (up : Upstream) (db' : AList Row)
    (up' : Upstream) : Prop where
  status : (tenantRow db' tenant.slug).map (·.status) = some tenant.status
  envelope : (up' tenant.id).envelope = (up tenant.id).envelope
  snapshot : parkSnapshotRow db' tenant.id = parkSnapshotRow db tenant.id

theorem unrevived_refl (htenant : tenantRow db tenant.slug = some tenant) :
    Unrevived tenant db up db up := by
  refine ⟨?_, rfl, rfl⟩
  rw [htenant]
  rfl

variable {E : ApiError → View Row Upstream → Prop}

theorem serial_straggler {provided : String} {req : Routes.BillingWebhookRequest}
    {Q : Nat → View Row Upstream → Prop}
    (hevent : BillingEvent.parse req.event = some .paymentSucceeded)
    (hslug : Validation.slug req.tenantSlug = .ok slug) (htenant : tenantRow db slug = some tenant)
    (hrefunded : (billingRow db tenant.id).map (·.state) = some .refunded)
    (hE : ∀ e, E e (.between db up))
    (hpayment : serial schema (Routes.onPaymentSucceeded cfg slug tenant) (.between db up)
      (fun restored v => Q (if restored then 200 else 204) v) E) :
    serial schema (Routes.billingWebhook cfg provided req) (.between db up) Q E := by
  simp only [Routes.billingWebhook, serial_bind, serial_okOr, serial_ensure, hevent,
    serial_require_ok, hslug, serial_pure]
  refine ⟨fun secret _ => ⟨fun _ => ?_, fun _ => hE _⟩, fun _ => hE _⟩
  refine serial_knownTenant htenant fun now => ?_
  rw [show (summary cfg db now tenant).tenant = tenant from rfl]
  refine serial_applyBillingEvent (fun _ => hE _) (fun _ _ _ => hpayment) fun _ _ _ _ hmoved => ?_
  rw [hrefunded] at hmoved
  cases hmoved

/-- Without anything to restore, a payment leaves the tenant alone, whatever it is answered. -/
theorem serial_onPaymentSucceeded_idle {Q : Bool → View Row Upstream → Prop}
    (hidle : ¬ Restorable db tenant) (hQ : ∀ restored, Q restored (.between db up))
    (hE : ∀ e, E e (.between db up)) :
    serial schema (Routes.onPaymentSucceeded cfg slug tenant) (.between db up) Q E := by
  simp only [Routes.onPaymentSucceeded, loadParkSnapshot, serial_bind,
    serial_snapshot, serial_pure, View.between_seen]
  split_ifs with hstatus
  · rw [serial_pure]
    exact hQ false
  · simp only [latestManagementUrl, serial_bind, serial_okOr, serial_snapshot,
      serial_pure, View.between_seen]
    refine ⟨fun snapshot hsnapshot => ⟨fun url hurl => ?_, fun _ => hE _⟩, fun _ => hE _⟩
    obtain ⟨hrow, hwaits⟩ := filter_eq_some_iff.mp hsnapshot
    refine absurd ⟨by tauto, ?_, ?_⟩ hidle
    · rw [hrow]
      exact hwaits
    · rw [show managementUrl db tenant.id = some url from hurl]
      rfl

/-- **Late payments for refunded tenants.** A payment the machine ignores because the tenant has
been refunded leaves the tenant alone if, and when it is answered with success only if, there is
nothing to restore. -/
theorem straggler_unrevived_iff {s t : State} {provided : String}
    {req : Routes.BillingWebhookRequest} {answer : Except ApiError Reply}
    (hquiet : Quiescent s.toShared) (hevent : req.event = "payment_succeeded")
    (hslug : Validation.slug req.tenantSlug = .ok tenant.slug)
    (htenant : tenantRow s.committed tenant.slug = some tenant)
    (hstored : s.committed.lookup (.tenant tenant.id) = some tenant)
    (hrefunded : (billingRow s.committed tenant.id).map (·.state) = some .refunded)
    (hserves : Serves (server cfg) s (.webhook provided req) answer t) :
    (¬ Restorable s.committed tenant →
      Unrevived tenant s.committed s.upstream t.committed t.upstream) ∧
    (answer.isOk = true → (Unrevived tenant s.committed s.upstream t.committed t.upstream ↔
        ¬ Restorable s.committed tenant)) := by
  have hparsed : BillingEvent.parse req.event = some .paymentSucceeded := by
    rw [hevent]
    rfl
  have hidle : ¬ Restorable s.committed tenant →
      Unrevived tenant s.committed s.upstream t.committed t.upstream := by
    intro hnothing
    have hleft : Unrevived tenant s.committed s.upstream s.committed s.upstream :=
      unrevived_refl htenant
    refine (serves_post hserves (Q := fun _ db up =>
      Unrevived tenant s.committed s.upstream db up) hquiet (Nat.zero_le _) ?_).2
    rw [handle, serial_map]
    refine serial_straggler hparsed hslug htenant hrefunded (fun _ => hleft) ?_
    exact serial_onPaymentSucceeded_idle hnothing (fun _ => hleft) fun _ => hleft
  refine ⟨hidle, fun hok => ⟨fun hunrevived hrestorable => ?_, hidle⟩⟩
  obtain ⟨hstatus, hwaiting, -⟩ := hrestorable
  cases answer with
  | error e => cases hok
  | ok reply =>
    -- the lifecycle machine has restored the tenant, so the snapshot waits no longer
    have hstands : Stands tenant.slug tenant.id s.committed s.upstream
        ⟨tenant.status, true, (s.upstream tenant.id).envelope.parked⟩ :=
      ⟨tenant, htenant, rfl, hstored, rfl, hwaiting, rfl⟩
    have hcall : Call.lifecycle tenant.slug (.webhook provided req) = some .paymentSucceeded := by
      simp [Call.lifecycle, hparsed, hslug]
    obtain ⟨-, hafter⟩ := served_ok
      (Q := fun db up => Stands tenant.slug tenant.id db up
        (Lifecycle.after ⟨tenant.status, true, (s.upstream tenant.id).envelope.parked⟩
          .paymentSucceeded))
      hserves hquiet (serial_lifecycle hcall hstands)
    rw [Lifecycle.after, if_pos (hstatus.imp_right fun hactive => ⟨hactive, rfl⟩)] at hafter
    obtain ⟨-, -, -, -, -, hconsumed, -⟩ := hafter
    rw [hunrevived.snapshot, hwaiting] at hconsumed
    cases hconsumed

def refundedBilling : TenantBillingRow where
  tenantId := 1
  provider := "stripe"
  providerCustomerId := none
  providerSubscriptionId := none
  state := .refunded
  subscriptionStartedAt := 0
  trialEndsAt := none
  currentPeriodEndsAt := none
  updatedAt := 0

def waitingSnapshot : ParkSnapshotRow where
  tenantId := 1
  parkedAt := 0
  parkedBy := "operator"
  agentEnabled := true
  dryRun := false
  posture := "grounded"
  envelopeVersion := 1
  weeklyOwnedAudienceTouches := 1
  weeklyThirdPartyTouches := 1
  subjectCooldownHours := 1
  maxRecipientsPerStep := 1
  postureVersion := 1
  reason := none
  unparkedAt := none
  unparkedBy := none

def refundedState : State :=
  { demoState with committed := demoState.committed.insert (.billing 1) refundedBilling }

def parkedTenant : TenantRow := { demoTenant with status := .parked }

def refundedParkedState : State :=
  { refundedState with
    committed := (refundedState.committed.insert (.tenant 1) parkedTenant).insert (.parkSnapshot 1)
      waitingSnapshot
    upstream := fun _ => ⟨⟨false, false, 1, 1, 1, 1, true, 2⟩, ⟨"grounded", 1⟩, false⟩ }

def latePayment : Call :=
  .webhook "secret" ⟨"acme", "payment_succeeded", none, none, none, none, none, none⟩

theorem straggler_unrevived_iff_running :
    ∃ answer t, Serves (server demoConfig) refundedState latePayment answer t ∧ answer.isOk = true ∧
      Unrevived demoTenant refundedState.committed refundedState.upstream t.committed t.upstream := by
  have hrun : (runSchedule (server demoConfig) refundedState (alone 0 latePayment 8)).bind
      (fun t => (t.returned 0).map (·.isOk)) = some true := by
    decide
  obtain ⟨t, hschedule, hreturned⟩ := bind_eq_some_iff.mp hrun
  obtain ⟨answer, hanswer, hok⟩ := map_eq_some_iff.mp hreturned
  have hserves := serves_of_alone hschedule hanswer
  have hnothing : ¬ Restorable refundedState.committed demoTenant := by
    intro hrestorable
    exact Bool.noConfusion (hrestorable.2.1 : (none : Option ParkSnapshotRow).any unconsumed = true)
  refine ⟨answer, t, hserves, hok, ?_⟩
  exact (straggler_unrevived_iff ⟨fun _ => rfl, fun _ => rfl⟩ rfl (by decide) rfl rfl rfl
    hserves).1 hnothing

/-- The payment of a refunded and parked tenant, which the machine ignores, makes the tenant active,
unparks its service and consumes its snapshot. -/
theorem straggler_revives :
    ∃ answer t, Serves (server demoConfig) refundedParkedState latePayment answer t ∧
      (billingRow refundedParkedState.committed 1).map (·.state) = some .refunded ∧
      lifecycleOf "acme" refundedParkedState = some ⟨.parked, true, true⟩ ∧
      lifecycleOf "acme" t = some .restored := by
  have hrun : (runSchedule (server demoConfig) refundedParkedState (alone 0 latePayment 28)).bind
      (fun t => (t.returned 0).map fun _ => lifecycleOf "acme" t) = some (some .restored) := by
    decide
  obtain ⟨t, hschedule, hreturned⟩ := bind_eq_some_iff.mp hrun
  obtain ⟨answer, hanswer, hafter⟩ := map_eq_some_iff.mp hreturned
  exact ⟨answer, t, serves_of_alone hschedule hanswer, rfl, by decide, hafter⟩

end ControlPlane
