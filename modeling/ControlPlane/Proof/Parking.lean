import ControlPlane.Proof.Alone

/-!
# Parking

Status, waiting snapshot and parked service move as a small machine does. It keeps active tenants
unparked as long as no resume is made over a waiting snapshot.
-/

namespace ControlPlane

open ReadCommitted ReadCommitted.Handler Store Routes List

structure Lifecycle where
  status : TenantStatus
  waiting : Bool
  parked : Bool
deriving DecidableEq, Repr

inductive LifecycleRequest where
  | park
  | unpark
  | suspend
  | resume
  | paymentSucceeded
deriving DecidableEq, Repr

namespace Lifecycle

def restored : Lifecycle := ⟨.active, false, false⟩

def after (l : Lifecycle) : LifecycleRequest → Lifecycle
  | .park => ⟨.parked, true, true⟩
  | .unpark => restored
  | .suspend => { l with status := .suspended }
  | .resume => { l with status := .active }
  | .paymentSucceeded =>
    if l.status = .parked ∨ l.status = .active ∧ l.waiting = true then restored else l

def Agrees (l : Lifecycle) : Prop := l.status = .active → l.parked = false ∧ l.waiting = false

structure Sound (l : Lifecycle) : Prop where
  active : l.status = .active → l.waiting = false
  settled : l.waiting = false → l.parked = false

variable {l : Lifecycle}

theorem Sound.agrees (hsound : l.Sound) : l.Agrees :=
  fun hactive => ⟨hsound.settled (hsound.active hactive), hsound.active hactive⟩

theorem sound_restored : restored.Sound := ⟨fun _ => rfl, fun _ => rfl⟩

theorem Sound.after {request : LifecycleRequest} (hsound : l.Sound)
    (hresume : request = .resume → l.waiting = false) : (l.after request).Sound := by
  cases request with
  | park => exact ⟨fun hactive => by simp [Lifecycle.after] at hactive,
      fun hsettled => by simp [Lifecycle.after] at hsettled⟩
  | unpark => exact sound_restored
  | suspend => exact ⟨fun hactive => by simp [Lifecycle.after] at hactive, hsound.settled⟩
  | resume => exact ⟨fun _ => hresume rfl, hsound.settled⟩
  | paymentSucceeded =>
    simp only [Lifecycle.after]
    split_ifs
    · exact sound_restored
    · exact hsound

theorem Sound.agrees_resume_iff (hsound : l.Sound) : (l.after .resume).Agrees ↔ l.waiting = false :=
  ⟨fun hagrees => (hagrees rfl).2, fun hwaiting _ => ⟨hsound.settled hwaiting, hwaiting⟩⟩

end Lifecycle

section Tables

variable {db : AList Row}

theorem filterMap_erase {α β : Type} [DecidableEq α] {f : α → Option β} {a : α} (hnone : f a = none)
    (l : List α) : (l.erase a).filterMap f = l.filterMap f := by
  induction l with
  | nil => rfl
  | cons b rest ih =>
    by_cases heq : b = a
    · subst heq
      rw [erase_cons_head, filterMap_cons_none hnone]
    · rw [erase_cons_tail (by simpa using heq), filterMap_cons, filterMap_cons, ih]

def tenantAt (db : AList Row) : Key → Option TenantRow
  | .tenant id => db.lookup (.tenant id)
  | _ => none

theorem tenantsOf_eq : tenantsOf db = db.keys.filterMap (tenantAt db) := by
  refine filterMap_congr fun key _ => ?_
  cases key <;> rfl

theorem tenantRow_saved_of_not_tenant {key : Key} {row : Row key}
    (hkey : ∀ id, key ≠ .tenant id) (slug : String) :
    tenantRow (saved db key row) slug = tenantRow db slug := by
  have hread : tenantAt (saved db key row) = tenantAt db := by
    funext other
    cases other with
    | tenant id => exact lookup_saved_of_ne _ _ (hkey id).symm
    | _ => rfl
  have hnone : tenantAt db key = none := by
    cases key with
    | tenant id => exact absurd rfl (hkey id)
    | _ => rfl
  rw [tenantRow, tenantRow, tenantsOf_eq, tenantsOf_eq, hread, keys_saved,
    filterMap_cons_none hnone, filterMap_erase hnone]

theorem tenantRow_saved_tenant (id : Uuid) (row : TenantRow) :
    tenantRow (saved db (.tenant id) row) row.slug = some row := by
  have hread : tenantAt (saved db (.tenant id) row) (.tenant id) = some row :=
    lookup_saved_self ..
  rw [tenantRow, tenantsOf_eq, keys_saved, filterMap_cons_some hread]
  exact find?_cons_of_pos (by simp)

end Tables

def Stands (slug : String) (tenantId : Uuid) (db : AList Row) (up : Upstream) (l : Lifecycle) :
    Prop :=
  ∃ tenant : TenantRow, tenantRow db slug = some tenant ∧ tenant.id = tenantId ∧
    db.lookup (.tenant tenantId) = some tenant ∧ tenant.status = l.status ∧
    (parkSnapshotRow db tenantId).any unconsumed = l.waiting ∧
    (up tenantId).envelope.parked = l.parked

section Steps

variable {cfg : Config} {db : AList Row} {up : Upstream} {slug : String} {tenantId : Uuid}
  {l : Lifecycle} {status : TenantStatus} {now : Instant} {tenant : TenantRow}

theorem Stands.setStatus (hstands : Stands slug tenantId db up l)
    (htenant : tenantRow db slug = some tenant) :
    Stands slug tenantId
      (saved db (.tenant tenant.id) { tenant with status := status, updatedAt := now }) up
      { l with status := status } := by
  obtain ⟨tenant', htenant', hid, -, -, hwaiting, hparked⟩ := hstands
  rw [htenant, Option.some.injEq] at htenant'
  subst htenant'
  have hslug : tenant.slug = slug := by simpa using find?_some htenant
  subst hslug hid
  refine ⟨_, tenantRow_saved_tenant tenant.id { tenant with status := status, updatedAt := now },
    rfl, lookup_saved_self .., rfl, ?_, hparked⟩
  rw [parkSnapshotRow, lookup_saved_of_ne _ _ (by simp)]
  exact hwaiting

theorem Stands.snapshot (hstands : Stands slug tenantId db up l) (row : ParkSnapshotRow) :
    Stands slug tenantId (saved db (.parkSnapshot tenantId) row) up
      { l with waiting := unconsumed row } := by
  obtain ⟨tenant, htenant, hid, hlookup, hstatus, -, hparked⟩ := hstands
  refine ⟨tenant, ?_, hid, ?_, hstatus, ?_, hparked⟩
  · rw [tenantRow_saved_of_not_tenant (by simp), htenant]
  · rw [lookup_saved_of_ne _ _ (by simp), hlookup]
  · rw [parkSnapshotRow, lookup_saved_self, Option.any_some]

theorem Stands.billing (hstands : Stands slug tenantId db up l) (row : TenantBillingRow) :
    Stands slug tenantId (saved db (.billing tenantId) row) up l := by
  obtain ⟨tenant, htenant, hid, hlookup, hstatus, hwaiting, hparked⟩ := hstands
  refine ⟨tenant, ?_, hid, ?_, hstatus, ?_, hparked⟩
  · rw [tenantRow_saved_of_not_tenant (by simp), htenant]
  · rw [lookup_saved_of_ne _ _ (by simp), hlookup]
  · rw [parkSnapshotRow, lookup_saved_of_ne _ _ (by simp)]
    exact hwaiting

theorem Stands.envelope (hstands : Stands slug tenantId db up l) (up' : Upstream) :
    Stands slug tenantId db up' { l with parked := (up' tenantId).envelope.parked } := by
  obtain ⟨tenant, htenant, hid, hlookup, hstatus, hwaiting, -⟩ := hstands
  exact ⟨tenant, htenant, hid, hlookup, hstatus, hwaiting, rfl⟩

/-- If it succeeds, the body takes the lifecycle from one state to the other. -/
abbrev Moves {α : Type} (slug : String) (tenantId : Uuid) (body : Handler α) (l l' : Lifecycle) :
    Prop :=
  ∀ {db : AList Row} {up : Upstream} {Q : View Row Upstream → Prop}, Stands slug tenantId db up l →
    (∀ db' up', Stands slug tenantId db' up' l' → Q (.between db' up')) →
    serial schema body (.between db up) (fun _ v => Q v) fun _ _ => True

theorem moves_setStatus :
    Moves slug tenantId (setStatus cfg slug status) l { l with status := status } := by
  intro db up Q hstands hQ
  have htold := hstands
  obtain ⟨tenant, htenant, hid, hlookup, -⟩ := htold
  simp only [setStatus, updateTenant, serial_bind, serial_snapshot,
    serial_ensure, serial_inTransaction, serial_sqlNow, View.between_seen,
    htenant]
  refine ⟨fun _ now => ?_, fun _ => trivial⟩
  refine serial_updateRow (fun _ => by simp) fun row hrow _ => ⟨fun _ => ?_, fun _ _ => trivial⟩
  rw [View.between_seen, hid, hlookup, Option.some.injEq] at hrow
  subst hrow
  rw [serial_okOr]
  refine ⟨fun _ _ => ?_, fun hnone => by simp at hnone⟩
  exact serial_tenantBySlug (fun _ => trivial) fun _ _ _ => hQ _ _ (hstands.setStatus htenant)

def savedSnapshot (snapshot : ParkSnapshotRow) (already : Bool) (now : Instant)
    (old : Option ParkSnapshotRow) : ParkSnapshotRow :=
  old.elim { snapshot with parkedAt := now } fun row =>
    if keepsSnapshot already row then row else { snapshot with parkedAt := now }

variable {snapshot : ParkSnapshotRow} {already : Bool}

theorem unconsumed_savedSnapshot (hnew : unconsumed snapshot = true) (old : Option ParkSnapshotRow) :
    unconsumed (savedSnapshot snapshot already now old) = true := by
  cases old with
  | none => exact hnew
  | some row =>
    simp only [savedSnapshot, Option.elim_some]
    split_ifs with hkeeps
    -- a row the statement spares is unconsumed too
    · exact (Bool.and_eq_true _ _ ▸ hkeeps).1
    · exact hnew

theorem moves_saveParkSnapshot (hnew : unconsumed snapshot = true) :
    Moves slug snapshot.tenantId (saveParkSnapshot snapshot already) l { l with waiting := true } := by
  intro db up Q hstands hQ
  simp only [saveParkSnapshot, serial_inTransaction, serial_bind,
    serial_sqlNow, serial_upsert, serial_pure, View.between_seen,
    View.between_put]
  refine fun now => ⟨fun _ _ => hQ _ _ ?_, fun _ _ => trivial, fun _ => trivial⟩
  have hafter := hstands.snapshot
    (savedSnapshot snapshot already now (parkSnapshotRow db snapshot.tenantId))
  rwa [unconsumed_savedSnapshot hnew] at hafter

variable {actor : String}

theorem moves_consumeParkSnapshot :
    Moves slug tenantId (consumeParkSnapshot tenantId actor) l { l with waiting := false } := by
  intro db up Q hstands hQ
  simp only [consumeParkSnapshot, serial_inTransaction, serial_bind, serial_sqlNow, serial_pure]
  refine fun now =>
    serial_updateRow (fun hmiss => ?_) fun row _ _ => ⟨fun _ => ?_, fun _ _ => trivial⟩
  · rw [View.between_seen, View.between_settled]
    refine hQ db up ?_
    obtain ⟨tenant, htenant, hid, hlookup, hstatus, -, hparked⟩ := hstands
    refine ⟨tenant, htenant, hid, hlookup, hstatus, ?_, hparked⟩
    cases hrow : parkSnapshotRow db tenantId with
    | none => rfl
    | some row => exact hmiss row (by rw [View.between_seen]; exact hrow)
  · rw [View.between_put]
    exact hQ _ _ (hstands.snapshot _)

variable {context : String}

theorem serial_requestManagement {req : ManagementRequest} {v : View Row Upstream}
    {Q : Json → View Row Upstream → Prop}
    (hQ : ∀ answer, (serve req v.upstream).1 = .ok answer →
      Q answer { v with upstream := (serve req v.upstream).2 }) :
    serial schema (Routes.requestManagement context req) v Q fun _ _ => True := by
  simp only [requestManagement, serial_bind, serial_request, serial_mapErr, serial_require]
  intro answer upstream' hserved
  refine ⟨fun document hdocument => ?_, fun _ _ => trivial⟩
  obtain hserved | ⟨hlost, -⟩ := hserved
  · obtain ⟨rfl, rfl⟩ := Prod.mk.inj hserved
    exact hQ document hdocument
  · rw [hlost] at hdocument
    exact absurd hdocument (by simp [schema])

variable {url : String} {posture : String} {version : Int} {rawSlug : String}

theorem serial_getEnvelope {Q : Json → View Row Upstream → Prop}
    (hQ : Q (up tenantId).envelope.toJson (.between db up)) :
    serial schema (Routes.requestManagement context (.getEnvelope tenantId url)) (.between db up) Q
      fun _ _ => True := by
  refine serial_requestManagement fun answer hanswer => ?_
  obtain rfl := Except.ok.inj hanswer
  rw [show (serve (.getEnvelope tenantId url) (View.between db up).upstream).2 = up from
    Function.update_eq_self ..]
  exact hQ

theorem serial_getPosture {Q : Json → View Row Upstream → Prop}
    (hQ : ∀ answer, Q answer (.between db up)) :
    serial schema (Routes.requestManagement context (.getPosture tenantId url)) (.between db up) Q
      fun _ _ => True := by
  refine serial_requestManagement fun answer _ => ?_
  rw [show (serve (.getPosture tenantId url) (View.between db up).upstream).2 = up from
    Function.update_eq_self ..]
  exact hQ answer

theorem moves_postEnvelope {body : EnvelopeRequest} :
    Moves slug tenantId (Routes.requestManagement context (.postEnvelope tenantId url body)) l
      { l with parked := body.parked } := by
  intro db up Q hstands hQ
  refine serial_requestManagement fun answer hanswer => hQ _ _ ?_
  have hparked : ((serve (.postEnvelope tenantId url body) up).2 tenantId).envelope.parked =
      body.parked := by
    have hreplaced : (serveTenant (up tenantId) (.postEnvelope tenantId url body)).2.envelope.parked =
        body.parked := by
      change (serveTenant (up tenantId) (.postEnvelope tenantId url body)).1 = .ok answer at hanswer
      simp only [serveTenant, GrowthEnvelope.replace] at hanswer ⊢
      split_ifs at hanswer ⊢
      rfl
    simpa [serve, ManagementRequest.tenantId] using hreplaced
  have hafter := hstands.envelope (serve (.postEnvelope tenantId url body) up).2
  rwa [hparked] at hafter

theorem serveTenant_postPosture (service : TenantService) :
    (serveTenant service (.postPosture tenantId url posture version)).2.envelope =
      service.envelope := by
  simp only [serveTenant]
  split_ifs <;> rfl

theorem moves_postPosture : Moves slug tenantId
    (ReadCommitted.Handler.request (.postPosture tenantId url posture version)) l l := by
  intro db up Q hstands hQ
  have hserved : Stands slug tenantId db (serve (.postPosture tenantId url posture version) up).2
      l := by
    have hkept : ((serve (.postPosture tenantId url posture version) up).2 tenantId).envelope =
        (up tenantId).envelope :=
      (congrArg _ (Function.update_self ..)).trans (serveTenant_postPosture (up tenantId))
    obtain ⟨tenant, htenant, hid, hlookup, hstatus, hwaiting, hparked⟩ := hstands
    exact ⟨tenant, htenant, hid, hlookup, hstatus, hwaiting, hkept ▸ hparked⟩
  rw [serial_request]
  rintro answer upstream' (hanswer | ⟨-, rfl | rfl⟩)
  · obtain ⟨-, rfl⟩ := Prod.mk.inj hanswer
    exact hQ _ _ hserved
  · exact hQ _ _ hserved
  · exact hQ _ _ hstands

@[simp]
theorem boolAt_parked (envelope : GrowthEnvelope) (fallback : Bool) :
    Routes.boolAt "parked" fallback envelope.toJson = envelope.parked := rfl

theorem moves_finishRestore : Moves slug tenantId (finishRestore cfg slug tenantId l.status actor)
    { l with parked := false } .restored := by
  intro db up Q hunparked hQ
  simp only [finishRestore, serial_bind, serial_whenever, serial_pure]
  refine ⟨fun _ => moves_setStatus hunparked fun _ _ hactive => ?_, fun hactive => ?_⟩
  · exact moves_consumeParkSnapshot hactive hQ
  · refine moves_consumeParkSnapshot hunparked fun db' up' hrestored => hQ db' up' ?_
    rwa [not_not.mp hactive] at hrestored

theorem moves_restoreTenantFromSnapshot : Moves slug tenantId
    (Routes.restoreTenantFromSnapshot cfg slug tenantId url snapshot l.status actor) l .restored := by
  intro db up Q hstands hQ
  simp only [restoreTenantFromSnapshot, serial_bind, serial_whenever, serial_pure]
  refine serial_getEnvelope ⟨fun _ => ?_, fun hunparked => ?_⟩
  · refine moves_postEnvelope hstands fun _ _ hunparked => ?_
    exact moves_postPosture hunparked fun _ _ hunparked => moves_finishRestore hunparked hQ
  · refine moves_finishRestore ?_ hQ
    have hparked := hstands.envelope up
    rwa [show (up tenantId).envelope.parked = false by simpa using hunparked] at hparked

theorem moves_parkTenant {reason : Option String} (hslug : Validation.slug rawSlug = .ok slug) :
    Moves slug tenantId (Routes.parkTenant cfg rawSlug actor reason) l ⟨.parked, true, true⟩ := by
  intro db up Q hstands hQ
  have htold := hstands
  obtain ⟨tenant, htenant, hid, -⟩ := htold
  simp only [parkTenant, target, serial_bind, serial_require_ok, serial_ensure, serial_okOr, hslug]
  refine serial_tenantBySlug (fun _ => trivial) fun _ _ _ =>
    ⟨fun _ => ⟨fun _ => ?_, fun _ => trivial⟩, fun _ => trivial⟩
  refine serial_knownTenant htenant fun _ =>
    ⟨fun _ => ⟨fun _ => ?_, fun _ => trivial⟩, fun _ => trivial⟩
  subst hid
  simp only [latestManagementUrl, serial_bind, serial_snapshot, serial_pure]
  refine ⟨fun url _ => serial_getEnvelope (serial_getPosture fun posture => ?_), fun _ => trivial⟩
  refine moves_saveParkSnapshot rfl hstands fun _ _ hwaiting => ?_
  exact moves_postEnvelope hwaiting fun _ _ hparked => moves_setStatus hparked hQ

theorem moves_unparkTenant (hslug : Validation.slug rawSlug = .ok slug) :
    Moves slug tenantId (Routes.unparkTenant cfg rawSlug actor) l .restored := by
  intro db up Q hstands hQ
  have htold := hstands
  obtain ⟨tenant, htenant, hid, -, hstatus, -⟩ := htold
  simp only [unparkTenant, loadParkSnapshot, latestManagementUrl, serial_bind, serial_require_ok,
    serial_ensure, serial_okOr, serial_snapshot, serial_pure, hslug]
  refine serial_knownTenant htenant fun _ => ?_
  subst hid
  refine ⟨fun _ => ⟨fun _ => ⟨fun snapshot _ => ⟨fun url _ => ?_, fun _ => trivial⟩,
    fun _ => trivial⟩, fun _ => trivial⟩, fun _ => trivial⟩
  rw [show (summary cfg _ _ tenant).tenant.status = l.status from hstatus]
  refine moves_restoreTenantFromSnapshot hstands fun db' up' hrestored => ?_
  exact serial_tenantBySlug (fun _ => trivial) fun _ _ _ => hQ db' up' hrestored

theorem moves_onPaymentSucceeded (hid : tenant.id = tenantId) (hstatus : tenant.status = l.status) :
    Moves slug tenantId (Routes.onPaymentSucceeded cfg slug tenant) l (l.after .paymentSucceeded) := by
  intro db up Q hstands hQ
  have htold := hstands
  obtain ⟨-, -, -, -, -, hwaiting, -⟩ := htold
  have hloaded : (((parkSnapshotRow db tenantId).filter unconsumed).isSome = true) =
      (l.waiting = true) := by
    rw [← hwaiting]
    cases parkSnapshotRow db tenantId <;> simp [Option.filter]
  simp only [onPaymentSucceeded, loadParkSnapshot, serial_bind,
    serial_snapshot, serial_pure, View.between_seen, hid, hstatus, hloaded]
  by_cases hrestores : l.status = .parked ∨ l.status = .active ∧ l.waiting = true
  · rw [if_neg (by tauto)]
    simp only [latestManagementUrl, serial_bind, serial_okOr, serial_snapshot, serial_pure]
    refine ⟨fun snapshot _ => ⟨fun url _ => ?_, fun _ => trivial⟩, fun _ => trivial⟩
    refine moves_restoreTenantFromSnapshot hstands fun db' up' hrestored => hQ db' up' ?_
    rwa [Lifecycle.after, if_pos hrestores]
  · rw [if_pos (by tauto), serial_pure]
    refine hQ db up ?_
    rwa [Lifecycle.after, if_neg hrestores]

theorem moves_billingWebhook {provided : String} {req : Routes.BillingWebhookRequest}
    (hevent : BillingEvent.parse req.event = some .paymentSucceeded)
    (hslug : Validation.slug req.tenantSlug = .ok slug) :
    Moves slug tenantId (Routes.billingWebhook cfg provided req) l (l.after .paymentSucceeded) := by
  intro db up Q hstands hQ
  have htold := hstands
  obtain ⟨tenant, htenant, hid, -, hstatus, -⟩ := htold
  simp only [billingWebhook, serial_bind, serial_okOr, serial_ensure, hevent, serial_require_ok,
    hslug, serial_pure]
  refine ⟨fun secret _ => ⟨fun _ => ?_, fun _ => trivial⟩, fun _ => trivial⟩
  refine serial_knownTenant htenant fun now => ?_
  subst hid
  refine serial_applyBillingEvent (fun _ => trivial) (fun _ _ _ => ?_) fun _ _ _ _ _ _ => ?_
  · exact moves_onPaymentSucceeded rfl hstatus hstands hQ
  · exact moves_onPaymentSucceeded rfl hstatus (hstands.billing _) hQ

/-- The request on the tenant's lifecycle a call makes, if it makes one. -/
def Call.lifecycle (slug : String) : Call → Option LifecycleRequest
  | .park raw _ _ => if Validation.slug raw = .ok slug then some .park else none
  | .unpark raw _ => if Validation.slug raw = .ok slug then some .unpark else none
  | .suspend raw => if Validation.slug raw = .ok slug then some .suspend else none
  | .resume raw => if Validation.slug raw = .ok slug then some .resume else none
  | .webhook _ req =>
    if BillingEvent.parse req.event = some .paymentSucceeded ∧
      Validation.slug req.tenantSlug = .ok slug then some .paymentSucceeded
    else none
  | _ => none

theorem serial_lifecycle {call : Call} {request : LifecycleRequest}
    (hcall : call.lifecycle slug = some request) (hstands : Stands slug tenantId db up l) :
    serial schema (handle cfg call) (.between db up)
      (fun _ v => Stands slug tenantId v.committed v.upstream (l.after request))
      fun _ _ => True := by
  cases call with
  | park raw actor reason =>
    obtain ⟨hslug, rfl⟩ := by simpa [Call.lifecycle] using hcall
    rw [handle, serial_map]
    exact moves_parkTenant hslug hstands fun _ _ hafter => hafter
  | unpark raw actor =>
    obtain ⟨hslug, rfl⟩ := by simpa [Call.lifecycle] using hcall
    rw [handle, serial_map]
    exact moves_unparkTenant hslug hstands fun _ _ hafter => hafter
  | suspend raw =>
    obtain ⟨hslug, rfl⟩ := by simpa [Call.lifecycle] using hcall
    simp only [handle, serial_map, suspendTenant, serial_bind, serial_require_ok, hslug]
    exact moves_setStatus hstands fun _ _ hafter => hafter
  | resume raw =>
    obtain ⟨hslug, rfl⟩ := by simpa [Call.lifecycle] using hcall
    simp only [handle, serial_map, resumeTenant, serial_bind, serial_require_ok, hslug]
    exact moves_setStatus hstands fun _ _ hafter => hafter
  | webhook provided req =>
    obtain ⟨⟨hevent, hslug⟩, rfl⟩ := by simpa [Call.lifecycle] using hcall
    rw [handle, serial_map]
    exact moves_billingWebhook hevent hslug hstands fun _ _ hafter => hafter
  | _ => simp [Call.lifecycle] at hcall

end Steps

section Sequences

variable {cfg : Config} {s t u : State} {slug : String} {tenantId : Uuid}

/-- A lifecycle request on the tenant that succeeds, and that is no resume over a waiting
snapshot. -/
def keepsParked (slug : String) (tenantId : Uuid) (t : State) (call : Call)
    (answer : Except ApiError Reply) : Bool :=
  answer.isOk && match call.lifecycle slug with
    | none => false
    | some .resume => !(parkSnapshotRow t.committed tenantId).any unconsumed
    | some _ => true

/-- The tenant the slug names is unparked and has nothing to restore if it is active. -/
def RunsUnparked (slug : String) (t : State) : Prop :=
  ∀ tenant, tenantRow t.committed slug = some tenant → tenant.status = .active →
    (t.upstream tenant.id).envelope.parked = false ∧
    (parkSnapshotRow t.committed tenant.id).any unconsumed = false

theorem Stands.runsUnparked_iff {l : Lifecycle}
    (hstands : Stands slug tenantId t.committed t.upstream l) : RunsUnparked slug t ↔ l.Agrees := by
  obtain ⟨tenant, htenant, rfl, -, hstatus, hwaiting, hparked⟩ := hstands
  simp only [RunsUnparked, htenant, Option.some.injEq, forall_eq', hstatus, hwaiting, hparked,
    Lifecycle.Agrees]

theorem sound_of_sequence {served : List (Call × Except ApiError Reply)}
    (hquiet : Quiescent s.toShared)
    (hstart : Stands slug tenantId s.committed s.upstream .restored)
    (hseq : Sequence (server cfg) (fun t call answer => keepsParked slug tenantId t call answer = true)
      s served t) :
    ∃ l, Stands slug tenantId t.committed t.upstream l ∧ l.Sound := by
  induction hseq with
  | nil => exact ⟨_, hstart, Lifecycle.sound_restored⟩
  | @cons served t u call answer hseq hkeeps hserves ih =>
    obtain ⟨l, hstands, hsound⟩ := ih
    cases answer with
    | error e => exact absurd hkeeps (by simp [keepsParked, Except.isOk, Except.toBool])
    | ok reply =>
      rw [keepsParked, Bool.and_eq_true] at hkeeps
      cases hcall : call.lifecycle slug with
      | none => simp [hcall] at hkeeps
      | some request =>
        obtain ⟨-, hafter⟩ := served_ok
          (Q := fun db up => Stands slug tenantId db up (l.after request))
          hserves (quiescent_of_sequence hquiet hseq) (serial_lifecycle hcall hstands)
        refine ⟨_, hafter, hsound.after ?_⟩
        rintro rfl
        obtain ⟨-, -, -, -, -, hwaiting, -⟩ := hstands
        simpa [hcall, hwaiting] using hkeeps.2

/-- **Status and service agree.** Lifecycle requests on a tenant that starts active and unparked
succeed one after the other, none a resume over a waiting snapshot. Then the tenant runs unparked
whenever it is active, and still does after one more resume exactly if no snapshot waited. -/
theorem active_runs_unparked {served : List (Call × Except ApiError Reply)}
    (hboot : Booted cfg s) (hstart : Stands slug tenantId s.committed s.upstream .restored)
    (hseq : Sequence (server cfg) (fun t call answer => keepsParked slug tenantId t call answer = true)
      s served t) :
    RunsUnparked slug t ∧
      ∀ raw reply u, Validation.slug raw = .ok slug →
        Serves (server cfg) t (.resume raw) (.ok reply) u →
        (RunsUnparked slug u ↔ (parkSnapshotRow t.committed tenantId).any unconsumed = false) := by
  have hquiet := quiescent_of_booted hboot
  obtain ⟨l, hstands, hsound⟩ := sound_of_sequence hquiet hstart hseq
  refine ⟨hstands.runsUnparked_iff.mpr hsound.agrees, fun raw reply u hslug hserves => ?_⟩
  have hcall : Call.lifecycle slug (.resume raw) = some .resume := by simp [Call.lifecycle, hslug]
  obtain ⟨-, hafter⟩ := served_ok
    (Q := fun db up => Stands slug tenantId db up (l.after .resume))
    hserves (quiescent_of_sequence hquiet hseq) (serial_lifecycle hcall hstands)
  rw [hafter.runsUnparked_iff, hsound.agrees_resume_iff]
  obtain ⟨-, -, -, -, -, hwaiting, -⟩ := hstands
  rw [hwaiting]

def lifecycleOf (slug : String) (t : State) : Option Lifecycle :=
  (tenantRow t.committed slug).map fun tenant =>
    { status := tenant.status
      waiting := (parkSnapshotRow t.committed tenant.id).any unconsumed
      parked := (t.upstream tenant.id).envelope.parked }

theorem demo_restored : Stands "acme" 1 demoState.committed demoState.upstream .restored :=
  ⟨demoTenant, rfl, rfl, rfl, rfl, rfl, rfl⟩

theorem active_runs_unparked_resumed :
    ∃ (served : List (Call × Except ApiError Reply)) (t : State),
      Sequence (server demoConfig)
        (fun t call answer => keepsParked "acme" 1 t call answer = true) demoState served t ∧
      served.map (·.1) =
        [.resume "acme", .suspend "acme", .unpark "acme" "operator", .park "acme" "operator" none] ∧
      (lifecycleOf "acme" t).map (·.status) = some .active ∧ RunsUnparked "acme" t := by
  have hrun : (serveAll (server demoConfig) (keepsParked "acme" 1) [] demoState
      [(.park "acme" "operator" none, 22), (.unpark "acme" "operator", 25), (.suspend "acme", 10),
        (.resume "acme", 10)]).map (fun run => (lifecycleOf "acme" run.2).map (·.status)) =
      some (some .active) := by
    decide
  obtain ⟨⟨served, t⟩, hserve, hstatus⟩ := Option.map_eq_some_iff.mp hrun
  obtain ⟨hseq, hcalls⟩ := sequence_of_serveAll .nil hserve
  exact ⟨served, t, hseq, by simpa using hcalls, hstatus,
    (active_runs_unparked (demo_booted demoConfig) demo_restored hseq).1⟩

/-- A tenant that is suspended while it is parked and then resumed is active, with its service parked
and its snapshot never restored. -/
theorem parked_after_resume :
    ∃ (served : List (Call × Except ApiError Reply)) (t : State),
      Sequence (server demoConfig) (fun _ _ answer => answer.isOk = true) demoState served t ∧
      served.map (·.1) = [.resume "acme", .suspend "acme", .park "acme" "operator" none] ∧
      lifecycleOf "acme" t = some ⟨.active, true, true⟩ := by
  have hrun : (serveAll (server demoConfig) (fun _ _ answer => answer.isOk) [] demoState
      [(.park "acme" "operator" none, 22), (.suspend "acme", 10), (.resume "acme", 10)]).map
        (fun run => lifecycleOf "acme" run.2) = some (some ⟨.active, true, true⟩) := by
    decide
  obtain ⟨⟨served, t⟩, hserve, hstands⟩ := Option.map_eq_some_iff.mp hrun
  obtain ⟨hseq, hcalls⟩ := sequence_of_serveAll .nil hserve
  exact ⟨served, t, hseq, by simpa using hcalls, hstands⟩

end Sequences

end ControlPlane
